import Mathlib.Data.List.Induction
import Mathlib.Data.List.Nodup
import Xkb.Proofs.Computation
import Xkb.Proofs.Definition
import Xkb.Proofs.Section.KeycodeAnswers

/-! The names of indicators over a whole run of definitions: no index has two names, and a name has
one index as long as no definition is let through that gives it a second one. -/

namespace Xkb

namespace IndicatorName

/-- Whether a definition takes the place of an earlier one. -/
def replaces (new : IndicatorName) : Bool :=
  new.definition.merge.replacesEntity

/-- Whether a clash of two definitions is reported. -/
def clashesAloud (level : Nat) (old new : IndicatorName) : Bool :=
  reportsClash old.definition.origin new.definition.origin level

/-- The entry with the name of another one. -/
def rename (new known : IndicatorName) : IndicatorName :=
  { known with name := new.name, isVirtual := new.isVirtual }

/-- The list after a definition of which only the index is looked at. -/
def placed (list : List IndicatorName) (new : IndicatorName) : List IndicatorName :=
  if new.index ∉ list.map (·.index) then list ++ [new]
  else if new.replaces then changeFirst (·.index == new.index) new.rename list
  else list

/-- The list where the entry of a name is real or virtual as told. -/
def switched (list : List IndicatorName) (new : IndicatorName) (isVirtual : Bool) :
    List IndicatorName :=
  changeFirst (·.name == new.name) ({ · with isVirtual }) list

/-- The list after a definition, at a level of reports. -/
def added (level : Nat) (list : List IndicatorName) (new : IndicatorName) : List IndicatorName :=
  match list.find? (·.name == new.name) with
  | none => placed list new
  | some old =>
    -- Only a clash that is reported is settled by name.
    if !clashesAloud level old new then placed list new
    else if old.index = new.index then
      if old.isVirtual = new.isVirtual then list
      else switched list new (if new.replaces then new.isVirtual else old.isVirtual)
    else if new.replaces then placed (list.eraseP (·.name == new.name)) new
    else placed list new

/-- Whether a definition is let through that gives a second index to a name: one that replaces where
the clash is not reported, since the first index goes only with a report, and any other one where its
own index has no name yet. -/
def Doubles (level : Nat) (list : List IndicatorName) (new : IndicatorName) : Prop :=
  ∃ old ∈ list, old.name = new.name ∧ old.index ≠ new.index ∧
    if new.replaces then clashesAloud level old new = false
    else new.index ∉ list.map (·.index)

/-- Whether a name is there already, with another index. -/
def OtherIndex (list : List IndicatorName) (new : IndicatorName) : Prop :=
  ∃ old ∈ list, old.name = new.name ∧ old.index ≠ new.index

section Placed

variable {list : List IndicatorName}

theorem placed_index_nodup (distinct : (list.map (·.index)).Nodup) (new : IndicatorName) :
    ((placed list new).map (·.index)).Nodup := by
  unfold placed
  split
  · rename_i fresh
    exact nodup_map_concat distinct fresh
  · split
    · -- The entry gets another name and keeps its index.
      have kept : (changeFirst (·.index == new.index) new.rename list).map (·.index)
          = list.map (·.index) := by
        refine map_changeFirst ?_ list
        intro item _
        rfl
      rwa [kept]
    · exact distinct

/-- An entry that gets another name by its index leaves names different, unless the name is there with
another index. -/
theorem renamed_name_nodup_iff (indexes : (list.map (·.index)).Nodup)
    (names : (list.map (·.name)).Nodup) {new : IndicatorName}
    (known : new.index ∈ list.map (·.index)) :
    ((changeFirst (·.index == new.index) new.rename list).map (·.name)).Nodup ↔
      ¬OtherIndex list new := by
  -- The entry of the index gets the name, and all others have another index.
  obtain ⟨before, entry, after, rfl, others, here⟩ := exists_first_of_mem_map known
  rw [changeFirst_split (by simpa using others) (by simpa using here)]
  simp only [List.map_append, List.map_cons, List.nodup_middle, List.nodup_cons] at names indexes ⊢
  rw [and_iff_left names.2, not_iff_not, ← List.map_append]
  constructor
  · intro held
    obtain ⟨old, member, same⟩ := List.mem_map.mp held
    refine ⟨old, ?_, same, fun index => indexes.1 ?_⟩
    · rcases List.mem_append.mp member with early | late
      · exact List.mem_append_left _ early
      · exact List.mem_append_right _ (List.mem_cons_of_mem _ late)
    · rw [here, ← index, ← List.map_append]
      exact List.mem_map_of_mem member
  · rintro ⟨old, member, same, other⟩
    rcases List.mem_append.mp member with early | late
    · exact same ▸ List.mem_map_of_mem (List.mem_append_left _ early)
    · rcases List.mem_cons.mp late with rfl | behind
      · exact absurd here other
      · exact same ▸ List.mem_map_of_mem (List.mem_append_right _ behind)

/-- Names stay different by index, unless another index of the name is there and the definition is
taken. -/
theorem placed_name_nodup_iff (indexes : (list.map (·.index)).Nodup)
    (names : (list.map (·.name)).Nodup) (new : IndicatorName) :
    ((placed list new).map (·.name)).Nodup ↔
      ¬(OtherIndex list new ∧ (new.replaces = true ∨ new.index ∉ list.map (·.index))) := by
  unfold placed
  by_cases fresh : new.index ∉ list.map (·.index)
  · -- The definition is appended, and any entry of its name has another index.
    rw [if_pos fresh]
    constructor
    · rintro distinct ⟨⟨old, member, same, -⟩, -⟩
      rw [List.map_append, List.nodup_append] at distinct
      exact distinct.2.2 old.name (List.mem_map_of_mem member) new.name (by simp) same
    · intro single
      refine nodup_map_concat names fun held => single ⟨?_, .inr fresh⟩
      obtain ⟨old, member, same⟩ := List.mem_map.mp held
      exact ⟨old, member, same, fun index => fresh (index ▸ List.mem_map_of_mem member)⟩
  · rw [if_neg fresh]
    by_cases replaces : new.replaces = true
    · rw [if_pos replaces, and_iff_left (.inl replaces)]
      exact renamed_name_nodup_iff indexes names (Decidable.not_not.mp fresh)
    · -- The index keeps its name, and nothing changes.
      rw [if_neg replaces]
      exact iff_of_true names fun ⟨_, taken⟩ => taken.elim replaces fresh

end Placed

section Added

variable {list : List IndicatorName} (level : Nat)

theorem map_switched {β : Type} {view : IndicatorName → β}
    (blind : ∀ (entry : IndicatorName) isVirtual, view { entry with isVirtual } = view entry)
    (new : IndicatorName) (isVirtual : Bool) : (switched list new isVirtual).map view = list.map view :=
  map_changeFirst (fun entry _ => blind entry isVirtual) list

theorem added_cases (new : IndicatorName) :
    added level list new = placed list new ∨ added level list new = list ∨
      (∃ isVirtual, added level list new = switched list new isVirtual) ∨
      added level list new = placed (list.eraseP (·.name == new.name)) new := by
  unfold added
  split
  · exact .inl rfl
  · split
    · exact .inl rfl
    · split
      · split
        · exact .inr (.inl rfl)
        · exact .inr (.inr (.inl ⟨_, rfl⟩))
      · split
        · exact .inr (.inr (.inr rfl))
        · exact .inl rfl

theorem added_index_nodup (distinct : (list.map (·.index)).Nodup) (new : IndicatorName) :
    ((added level list new).map (·.index)).Nodup := by
  rcases added_cases level new with same | same | ⟨isVirtual, same⟩ | same
  · rw [same]
    exact placed_index_nodup distinct new
  · rwa [same]
  · rw [same, map_switched (by intros; rfl)]
    exact distinct
  · rw [same]
    exact placed_index_nodup (distinct.sublist (List.eraseP_sublist.map _)) new

theorem exists_named_iff (names : (list.map (·.name)).Nodup) {new old : IndicatorName}
    (found : list.find? (·.name == new.name) = some old) {holds : IndicatorName → Prop} :
    (∃ other ∈ list, other.name = new.name ∧ holds other) ↔ holds old := by
  have named : old.name = new.name := by simpa using List.find?_some found
  have held := List.mem_of_find?_eq_some found
  constructor
  · rintro ⟨other, member, same, known⟩
    rwa [eq_of_key_eq names member held (same.trans named.symm)] at known
  · exact fun known => ⟨old, held, named, known⟩

variable {entry : IndicatorName}

theorem name_ne_of_mem_eraseP (names : (list.map (·.name)).Nodup) {name : String}
    (member : entry ∈ list.eraseP (·.name == name)) : entry.name ≠ name := by
  induction list with
  | nil => cases member
  | cons head tail ih =>
    rw [List.map_cons, List.nodup_cons] at names
    by_cases here : head.name = name
    · rw [List.eraseP_cons_of_pos (by simpa using here)] at member
      exact fun same => names.1 (here.trans same.symm ▸ List.mem_map_of_mem member)
    · rw [List.eraseP_cons_of_neg (by simpa using here)] at member
      rcases List.mem_cons.mp member with rfl | later
      · exact here
      · exact ih names.2 later

theorem added_name_nodup_iff (indexes : (list.map (·.index)).Nodup)
    (names : (list.map (·.name)).Nodup) (new : IndicatorName) :
    ((added level list new).map (·.name)).Nodup ↔ ¬Doubles level list new := by
  cases found : list.find? (·.name == new.name) with
  | none =>
    -- The name is new, so it cannot be doubled.
    have absent : ∀ old ∈ list, old.name ≠ new.name := by simpa using found
    simp only [added, found]
    rw [placed_name_nodup_iff indexes names]
    refine iff_of_true ?_ ?_
    · rintro ⟨⟨old, member, same, -⟩, -⟩
      exact absent old member same
    · rintro ⟨old, member, same, -⟩
      exact absent old member same
  | some old =>
    -- Since names are different, all is told by the one entry that is found.
    simp only [added, found]
    have placedIff := placed_name_nodup_iff indexes names new
    rw [OtherIndex, exists_named_iff names found] at placedIff
    rw [Doubles, exists_named_iff names found]
    by_cases aloud : clashesAloud level old new = true
    · rw [if_neg (by simp [aloud])]
      by_cases same : old.index = new.index
      · -- The name and its index are known, so that at most the kind of the indicator changes.
        rw [if_pos same]
        refine iff_of_true ?_ fun doubled => doubled.1 same
        split
        · exact names
        · rw [map_switched (by intros; rfl)]
          exact names
      · rw [if_neg same]
        by_cases replaces : new.replaces = true
        · -- The entry with the other index goes first, and with it the name.
          have gone : ¬OtherIndex (list.eraseP (·.name == new.name)) new := by
            rintro ⟨other, member, name, -⟩
            exact name_ne_of_mem_eraseP names member name
          rw [if_pos replaces, placed_name_nodup_iff (indexes.sublist (List.eraseP_sublist.map _))
            (names.sublist (List.eraseP_sublist.map _))]
          refine iff_of_true (fun doubled => gone doubled.1) ?_
          rw [if_pos replaces, aloud]
          exact fun doubled => Bool.noConfusion doubled.2
        · -- The definition is said to be ignored, but goes on to its index.
          rw [if_neg replaces, placedIff]
          simp [replaces]
    · -- Without a report the name is not looked at, whatever the mode.
      have quiet : clashesAloud level old new = false := by simpa using aloud
      rw [if_pos (by simp [aloud]), placedIff, quiet]
      cases new.replaces <;> simp

/-- An entry after a definition is the new one, or an old one that may have got its name by its
index. -/
def StemsFrom (list : List IndicatorName) (new entry : IndicatorName) : Prop :=
  entry = new ∨ ∃ old ∈ list, entry.definition = old.definition ∧
    (entry.name = old.name ∧ entry.index = old.index ∨
      entry.name = new.name ∧ entry.index = new.index)

theorem StemsFrom.of_mem {new : IndicatorName} (member : entry ∈ list) :
    StemsFrom list new entry :=
  .inr ⟨entry, member, rfl, .inl ⟨rfl, rfl⟩⟩

theorem stemsFrom_of_mem_placed {new : IndicatorName} (member : entry ∈ placed list new) :
    StemsFrom list new entry := by
  unfold placed at member
  split at member
  · rcases List.mem_append.mp member with known | last
    · exact .of_mem known
    · exact .inl (List.mem_singleton.mp last)
  · split at member
    · rcases mem_changeFirst member with known | ⟨old, known, here, rfl⟩
      · exact .of_mem known
      · exact .inr ⟨old, known, rfl, .inr ⟨rfl, eq_of_beq here⟩⟩
    · exact .of_mem member

theorem stemsFrom_of_mem_added {new : IndicatorName} (member : entry ∈ added level list new) :
    StemsFrom list new entry := by
  rcases added_cases level new with same | same | ⟨isVirtual, same⟩ | same
  · exact stemsFrom_of_mem_placed (same ▸ member)
  · exact .of_mem (same ▸ member)
  · rw [same] at member
    rcases mem_changeFirst member with known | ⟨old, known, -, rfl⟩
    · exact .of_mem known
    · exact .inr ⟨old, known, rfl, .inl ⟨rfl, rfl⟩⟩
  · -- What stems from the list without an entry stems from the list.
    rw [same] at member
    rcases stemsFrom_of_mem_placed member with new | ⟨old, known, stems⟩
    · exact .inl new
    · exact .inr ⟨old, List.mem_of_mem_eraseP known, stems⟩

end Added

section Runs

variable (level : Nat)

/-- The list after some definitions, one after the other, at a level of reports. -/
def addedAll (calls : List IndicatorName) : List IndicatorName :=
  calls.foldl (added level) []

variable (calls : List IndicatorName)

theorem addedAll_concat (new : IndicatorName) :
    addedAll level (calls ++ [new]) = added level (addedAll level calls) new := by
  rw [addedAll, List.foldl_append]
  rfl

/-- No two entries have the same index, whatever the definitions. -/
theorem addedAll_index_nodup :
    ((addedAll level calls).map (·.index)).Nodup := by
  -- The last definition is split off, so that the list before it is one of the same kind.
  induction calls using List.reverseRecOn with
  | nil => exact List.nodup_nil
  | append_singleton calls new ih =>
    rw [addedAll_concat]
    exact added_index_nodup level ih new

theorem addedAll_name_nodup_iff :
    (∀ done, done <+: calls → ((addedAll level done).map (·.name)).Nodup) ↔
      ∀ done new, done ++ [new] <+: calls → ¬Doubles level (addedAll level done) new := by
  have step (done : List IndicatorName) (names : ((addedAll level done).map (·.name)).Nodup)
      (new : IndicatorName) : ((addedAll level (done ++ [new])).map (·.name)).Nodup ↔
        ¬Doubles level (addedAll level done) new := by
    rw [addedAll_concat]
    exact added_name_nodup_iff level (addedAll_index_nodup level done) names new
  constructor
  · -- The names are different before the definition and after it.
    intro names done new before
    have earlier : done <+: calls := (List.prefix_append done [new]).trans before
    exact (step done (names done earlier) new).mp (names _ before)
  · -- What was made so far is carried on from one definition to the next.
    intro single done before
    induction done using List.reverseRecOn with
    | nil => exact List.nodup_nil
    | append_singleton done new ih =>
      have earlier : done <+: calls := (List.prefix_append done [new]).trans before
      exact (step done (ih earlier) new).mpr (single done new before)

/-- Name, index and origin of an entry are those of definitions: the name and the index of one of
them, and the origin of the one or another. -/
theorem addedAll_recorded :
    ∀ entry ∈ addedAll level calls,
      (∃ call ∈ calls, call.name = entry.name ∧ call.index = entry.index) ∧
        ∃ call ∈ calls, call.definition = entry.definition := by
  induction calls using List.reverseRecOn with
  | nil => exact fun _ member => nomatch member
  | append_singleton calls new ih =>
    intro entry member
    rw [addedAll_concat] at member
    rcases stemsFrom_of_mem_added level member with rfl | ⟨old, known, definition, stems⟩
    · exact ⟨⟨entry, by simp, rfl, rfl⟩, entry, by simp, rfl⟩
    · obtain ⟨⟨call, called, name, index⟩, other, calledToo, same⟩ := ih old known
      -- An entry that gets another name keeps its origin, so two definitions may be behind it.
      refine ⟨?_, other, by simp [calledToo], same.trans definition.symm⟩
      rcases stems with ⟨oldName, oldIndex⟩ | ⟨newName, newIndex⟩
      · exact ⟨call, by simp [called], name.trans oldName.symm, index.trans oldIndex.symm⟩
      · exact ⟨new, by simp, newName.symm, newIndex.symm⟩

end Runs

end IndicatorName

theorem Leads.atLevel {α : Type} {level : Nat} {next : Nat → Report α} {holds : α → Prop}
    (rest : Gives (next level) holds) :
    Leads (fun diagnostics => diagnostics.level = level) (Report.level >>= next)
      fun made _ => holds made := by
  intro diagnostics same
  subst same
  exact rest diagnostics

namespace KeycodeContents

open IndicatorName

variable (contents : KeycodeContents)

theorem addIndicatorAt_eq (new : IndicatorName) :
    Gives (contents.addIndicatorAt new) fun made =>
      made = { contents with indicators := placed contents.indicators new } := by
  simp only [addIndicatorAt, placed]
  split
  · rename_i none
    have fresh : new.index ∉ contents.indicators.map (·.index) := by
      simpa using none
    rw [if_pos fresh]
    exact .pure rfl
  · rename_i old found
    have known : ¬new.index ∉ contents.indicators.map (·.index) := by
      have same : old.index = new.index := by simpa using List.find?_some found
      exact not_not_intro (same ▸ List.mem_map_of_mem (List.mem_of_find?_eq_some found))
    rw [if_neg known]
    -- What is reported changes nothing of the list.
    let renamed := changeFirst (·.index == new.index) new.rename contents.indicators
    have settled : Gives (if new.definition.merge.replacesEntity then
          pure { contents with indicators := renamed }
        else pure contents : Report KeycodeContents) fun made => made =
          { contents with indicators := if new.replaces then renamed else contents.indicators } := by
      refine .ite (fun replaces => .pure ?_) fun keeps => .pure ?_
      · rw [IndicatorName.replaces, if_pos replaces]
      · rw [IndicatorName.replaces, if_neg keeps]
    exact .after fun level => .ite (fun _ => .after fun _ => settled) fun _ => settled

/-- Adding a name comes to the list that is told from the entries and the level of reports. -/
theorem addIndicator_eq (level : Nat) (contents : KeycodeContents) (new : IndicatorName) :
    Leads (fun diagnostics => diagnostics.level = level) (contents.addIndicator new) fun made _ =>
      made = { contents with indicators := added level contents.indicators new } := by
  cases found : contents.indicators.find? (·.name == new.name) with
  | none =>
    simp only [addIndicator, added, found]
    exact fun diagnostics _ => addIndicatorAt_eq contents new diagnostics
  | some old =>
    -- The level is looked at once, and what is reported on the way changes nothing of the list.
    simp only [addIndicator, added, found]
    refine .atLevel ?_
    refine .ite (fun (quiet : (!clashesAloud level old new) = true) => ?_)
      fun (aloud : ¬(!clashesAloud level old new) = true) => ?_
    · rw [if_pos quiet]
      exact addIndicatorAt_eq contents new
    rw [if_neg aloud]
    refine .ite (fun same => ?_) fun other => ?_
    · rw [if_pos (eq_of_beq same)]
      refine .ite (fun alike => ?_) fun differ => ?_
      · rw [if_pos (eq_of_beq alike)]
        exact .after fun _ => .pure rfl
      · have differ : ¬old.isVirtual = new.isVirtual := by simpa using differ
        rw [if_neg differ]
        exact .after fun _ => .pure rfl
    have other : ¬old.index = new.index := by simpa using other
    rw [if_neg other]
    refine .ite (fun (replaces : new.replaces = true) => ?_)
      fun (keeps : ¬new.replaces = true) => ?_
    · rw [if_pos replaces]
      exact .after fun _ => addIndicatorAt_eq _ new
    · rw [if_neg keeps]
      exact .after fun _ => addIndicatorAt_eq contents new

/-- Names of indicators that are added one after the other where there are none. -/
def nameIndicators (contents : KeycodeContents) (calls : List IndicatorName) :
    Report KeycodeContents :=
  calls.foldlM addIndicator { contents with indicators := [] }

theorem nameIndicators_eq (calls : List IndicatorName) (diagnostics : Diagnostics) :
    (contents.nameIndicators calls diagnostics).1.indicators = addedAll diagnostics.level calls := by
  -- Reports change neither the level nor the list.
  have run (calls : List IndicatorName) (contents : KeycodeContents) (log : Diagnostics)
      (same : log.level = diagnostics.level) : (calls.foldlM addIndicator contents log).1.indicators
        = calls.foldl (added diagnostics.level) contents.indicators := by
    induction calls generalizing contents log with
    | nil => rfl
    | cons new rest ih =>
      have made : (contents.addIndicator new log).1.indicators
          = added diagnostics.level contents.indicators new :=
        congrArg (·.indicators) (addIndicator_eq diagnostics.level contents new log same)
      rw [List.foldl_cons, ← made]
      exact ih _ _ (addIndicator_goes contents new log same).1
  exact run calls _ diagnostics rfl

/-- Whatever names are added to none, in any modes and at any level of reports: no two entries have
the same index. No two have the same name, from the first definition to the last, exactly if no
definition is let through that gives a second index to a name that is there. This holds if every
definition that gives another index to an earlier name replaces, and a clash of it with any earlier
one is reported. -/
theorem nameIndicators_distinct (contents : KeycodeContents) (calls : List IndicatorName)
    (diagnostics : Diagnostics) :
    let reached := fun calls => (contents.nameIndicators calls diagnostics).1.indicators
    ((reached calls).map (·.index)).Nodup ∧
      ((∀ done, done <+: calls → ((reached done).map (·.name)).Nodup) ↔
        ∀ done new, done ++ [new] <+: calls → ¬Doubles diagnostics.level (reached done) new) ∧
      ((∀ done new, done ++ [new] <+: calls → ∀ old ∈ done, old.name = new.name →
          old.index ≠ new.index → new.replaces = true ∧
            ∀ other ∈ done, clashesAloud diagnostics.level other new = true) →
        ((reached calls).map (·.name)).Nodup) := by
  intro reached
  have told : reached = addedAll diagnostics.level :=
    funext fun calls => contents.nameIndicators_eq calls diagnostics
  rw [told]
  refine ⟨addedAll_index_nodup _ calls, addedAll_name_nodup_iff _ calls, fun careful => ?_⟩
  refine (addedAll_name_nodup_iff _ calls).mpr ?_ calls (List.prefix_refl calls)
  intro done new before
  rintro ⟨old, member, name, index, doubled⟩
  -- The entry has the name and the index of an earlier definition, and the origin of one.
  obtain ⟨⟨call, called, callName, callIndex⟩, other, calledToo, origin⟩ :=
    addedAll_recorded diagnostics.level done old member
  obtain ⟨replaces, aloud⟩ := careful done new before call called (callName.trans name)
    fun same => index (callIndex.symm.trans same)
  have reported := aloud other calledToo
  rw [clashesAloud, origin] at reported
  rw [if_pos replaces, clashesAloud, reported] at doubled
  cases doubled

/-- A name that a section gives to a real indicator. -/
def indicatorNamed (merge : MergeMode) (index : Nat) (name : String) : IndicatorName :=
  ⟨.start .main merge, index, name, false⟩

/-- A name that moves to an index with another name is left with that index alone. -/
theorem nameIndicators_distinct_moved :
    let calls := [indicatorNamed .augment 1 "Caps Lock", indicatorNamed .augment 2 "Num Lock",
      indicatorNamed .override 2 "Caps Lock"]
    let reached := (empty.nameIndicators calls (.atLevel 1)).1.indicators
    reached.map (fun entry => (entry.index, entry.name)) = [(2, "Caps Lock")] ∧
      (reached.map (·.name)).Nodup := by
  intro calls reached
  refine ⟨by decide, (nameIndicators_distinct empty calls (.atLevel 1)).2.2 ?_⟩
  intro done new before
  match done, before with
  | [], _ => exact fun _ member => nomatch member
  | [_], before =>
    obtain ⟨rfl, rfl⟩ := by simpa [calls] using before
    decide
  | [_, _], before =>
    obtain ⟨rfl, rfl, rfl⟩ := by simpa [calls] using before
    decide
  | _ :: _ :: _ :: _, before =>
    have short := before.length_le
    simp only [calls, List.length_append, List.length_cons] at short
    omega

/-- A second index for a name is reported as ignored and is let through all the same. -/
theorem nameIndicators_doubles_name :
    let calls := [indicatorNamed .augment 1 "Caps Lock", indicatorNamed .augment 2 "Caps Lock"]
    let outcome := empty.nameIndicators calls (.atLevel 1)
    outcome.2.records.map (·.action) = [some "Using 1, ignoring 2"] ∧
      outcome.1.indicators.map (fun entry => (entry.index, entry.name))
        = [(1, "Caps Lock"), (2, "Caps Lock")] := by
  decide +kernel

end KeycodeContents

end Xkb
