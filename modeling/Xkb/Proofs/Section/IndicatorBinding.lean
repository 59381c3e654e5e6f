import Xkb.Proofs.Computation
import Xkb.Section.IndicatorMaps

/-! Indicator maps and their indicators: no map is lost or bound twice, and no name is changed. -/

namespace Xkb

/-- The map of the indicator at a place, where it has one. -/
def CompatTable.indicatorMap (table : CompatTable) (slot : Nat) : Option IndicatorMap :=
  (table.indicators[slot]?).join

/-- Every name that an indicator had, it still has. -/
def Keymap.KeepsIndicatorNames (before after : Keymap) : Prop :=
  ∀ slot name, before.keycodes.indicatorName slot = some name →
    after.keycodes.indicatorName slot = some name

namespace IndicatorDraft

/-- A map that asks for no indicator by number. -/
def unnumbered (draft : IndicatorDraft) : IndicatorDraft :=
  { draft with index := 0 }

/-- The warning about a map that finds no indicator. -/
def droppedReport (draft : IndicatorDraft) : Diagnostic :=
  .ofLines .warning "No unnamed indicators found"
    [s!"Virtual indicator map \"{draft.name}\" not bound"]

/-- An indicator is there for a map: it has no name yet, or that of the map. -/
def FitsAt (draft : IndicatorDraft) (keymap : Keymap) (slot : Nat) : Prop :=
  slot < 32 ∧ ∀ name, keymap.keycodes.indicatorName slot = some name → name = draft.name

/-- No indicator is there for a map: all have names, and none has that of the map. -/
def FitsNowhere (draft : IndicatorDraft) (keymap : Keymap) : Prop :=
  ∀ slot < 32, ∃ name, keymap.keycodes.indicatorName slot = some name ∧ name ≠ draft.name

/-- The maps that were bound on the way from one keymap to another, each with its place. -/
structure Bindings (before : Keymap) (bound : List (IndicatorDraft × Nat)) (after : Keymap) :
    Prop where
  /-- No name was changed. -/
  kept : before.KeepsIndicatorNames after
  /-- The indicator of a map carries its name and holds what it comes to. -/
  held : ∀ pair ∈ bound, after.keycodes.indicatorName pair.2 = some pair.1.name
    ∧ after.compat.indicatorMap pair.2 = some pair.1.effectiveMap
  /-- No other indicator is filled. -/
  filled : ∀ slot map, after.compat.indicatorMap slot = some map → slot ∈ bound.map Prod.snd
  /-- Different maps are at different places. -/
  apart : (bound.map Prod.snd).Nodup

variable {draft : IndicatorDraft} {bound : List (IndicatorDraft × Nat)} {place : Nat}
  {keymap : Keymap} {table : KeycodeTable} {name : String}

theorem indicatorName_bindAt (inside : place < 32) (slot : Nat) :
    (bindAt keymap place draft).keycodes.indicatorName slot
      = if place = slot then some draft.name else keymap.keycodes.indicatorName slot := by
  simp only [bindAt, KeycodeTable.indicatorName, Vector.getElem?_setIfInBounds]
  split
  · simp
  · simp

theorem indicatorMap_bindAt (inside : place < 32) (slot : Nat) :
    (bindAt keymap place draft).compat.indicatorMap slot
      = if place = slot then some draft.effectiveMap else keymap.compat.indicatorMap slot := by
  simp only [bindAt, CompatTable.indicatorMap, Vector.getElem?_setIfInBounds]
  split
  · simp
  · simp

theorem FitsAt.keeps (fits : draft.FitsAt keymap place) :
    keymap.KeepsIndicatorNames (bindAt keymap place draft) := by
  intro slot name known
  rw [indicatorName_bindAt fits.1]
  by_cases here : place = slot
  · subst here
    simp [fits.2 name known]
  · simpa [here] using known

theorem FitsNowhere.later {before after : Keymap} (nowhere : draft.FitsNowhere before)
    (kept : before.KeepsIndicatorNames after) : draft.FitsNowhere after := by
  intro slot inside
  obtain ⟨name, known, other⟩ := nowhere slot inside
  exact ⟨name, kept slot name known, other⟩

namespace Bindings

variable {keymap : Keymap}

theorem start (blank : keymap.compat.indicators = Vector.replicate 32 none) :
    Bindings keymap [] keymap where
  kept _ _ known := known
  held _ member := by simp at member
  filled slot map known := by
    rw [CompatTable.indicatorMap, blank, Vector.getElem?_replicate] at known
    split at known <;> simp at known
  apart := List.nodup_nil

theorem not_taken {before : Keymap} (bindings : Bindings before bound keymap)
    (fits : draft.FitsAt keymap place) (fresh : ∀ pair ∈ bound, pair.1.name ≠ draft.name) :
    place ∉ bound.map Prod.snd := by
  intro taken
  obtain ⟨pair, member, here⟩ := List.mem_map.mp taken
  -- The indicator there carries the name of the map that it holds.
  have named := (bindings.held pair member).1
  rw [here] at named
  exact fresh pair member (fits.2 _ named)

theorem bindAt {before : Keymap} (bindings : Bindings before bound keymap)
    (fits : draft.FitsAt keymap place) (fresh : ∀ pair ∈ bound, pair.1.name ≠ draft.name) :
    Bindings before (bound ++ [(draft, place)]) (IndicatorDraft.bindAt keymap place draft) := by
  have free := bindings.not_taken fits fresh
  refine ⟨?kept, ?held, ?filled, ?apart⟩
  case kept =>
    intro slot name known
    exact fits.keeps slot name (bindings.kept slot name known)
  case held =>
    intro pair member
    rw [indicatorName_bindAt fits.1, indicatorMap_bindAt fits.1]
    rcases List.mem_append.mp member with old | new
    · -- The maps before are elsewhere, so nothing changed for them.
      have elsewhere : place ≠ pair.2 := fun here =>
        free (here ▸ List.mem_map_of_mem old)
      simpa [elsewhere] using bindings.held pair old
    · obtain rfl : pair = (draft, place) := by simpa using new
      simp
  case filled =>
    intro slot map known
    rw [indicatorMap_bindAt fits.1] at known
    by_cases here : place = slot
    · simp [here]
    · have old := bindings.filled slot map (by simpa [here] using known)
      rw [List.map_append]
      exact List.mem_append_left _ old
  case apart =>
    rw [List.map_append]
    refine List.nodup_append.mpr ⟨bindings.apart, by simp, ?_⟩
    intro slot member other new
    obtain rfl : other = place := by simpa using new
    exact fun same => free (same ▸ member)

end Bindings

theorem slotNamed_eq_some {slot : Nat} (found : slotNamed table.indicatorNames name = some slot) :
    slot < 32 ∧ table.indicatorName slot = some name := by
  obtain ⟨inside, holds, _⟩ := List.findIdx?_eq_some_iff_getElem.mp found
  have bounded : slot < 32 := by simpa using inside
  refine ⟨bounded, ?_⟩
  have same : table.indicatorNames[slot] = some name := by simpa using holds
  simp [KeycodeTable.indicatorName, bounded, same]

theorem slotNamed_eq_none (missing : slotNamed table.indicatorNames name = none) (slot : Nat) :
    table.indicatorName slot ≠ some name := by
  intro carried
  have all := List.findIdx?_eq_none_iff.mp missing
  by_cases inside : slot < 32
  · have same : table.indicatorNames[slot] = some name := by
      simpa [KeycodeTable.indicatorName, inside] using carried
    have member : some name ∈ table.indicatorNames.toList := by
      rw [← same]
      simp
    simpa using all _ member
  · simp [KeycodeTable.indicatorName, inside] at carried

theorem bindNamed_cases (keymap : Keymap) (draft : IndicatorDraft) (legal : draft.index ≤ 32) :
    Gives (bindNamed keymap draft) fun made =>
      made = (keymap, some draft.unnumbered)
        ∨ ∃ place, draft.FitsAt keymap place ∧ made = (bindAt keymap place draft, none) := by
  simp only [bindNamed]
  -- The number is the given one, or that of the indicator with the name.
  generalize asked : (if draft.index == 0 then
    ((slotNamed keymap.keycodes.indicatorNames draft.name).map (· + 1)).getD 0
      else draft.index) = index
  have bounded : index ≤ 32 := by
    subst asked
    split
    · cases found : slotNamed keymap.keycodes.indicatorNames draft.name with
      | none => simp
      | some slot => exact (slotNamed_eq_some found).1
    · exact legal
  refine .ite (fun nowhere => .pure (.inl ?_)) fun somewhere => ?_
  · -- A number of zero means that none was given.
    have unasked : draft.index = 0 := by
      subst asked
      split at nowhere <;> simp_all
    simp [unnumbered, ← unasked]
  · have positive : index ≠ 0 := by simpa using somewhere
    split
    · exact .after fun _ => .pure (.inl rfl)
    · next free =>
      refine .pure (.inr ⟨index - 1, ⟨by omega, fun name known => ?_⟩, rfl⟩)
      rw [known] at free
      simpa using free

theorem bindFree_cases (keymap : Keymap) (draft : IndicatorDraft) (diagnostics : Diagnostics) :
    (∃ place, draft.FitsAt keymap place
        ∧ bindFree keymap draft diagnostics = (bindAt keymap place draft, diagnostics))
      ∨ (draft.FitsNowhere keymap
        ∧ bindFree keymap draft diagnostics = (keymap, diagnostics.push draft.droppedReport)) := by
  simp only [bindFree]
  cases named : slotNamed keymap.keycodes.indicatorNames draft.name with
  | some place =>
    obtain ⟨inside, carried⟩ := slotNamed_eq_some named
    refine .inl ⟨place, ⟨inside, fun name known => ?_⟩, rfl⟩
    exact Option.some.inj (known.symm.trans carried)
  | none =>
    cases unnamed : keymap.keycodes.indicatorNames.toList.findIdx? Option.isNone with
    | some place =>
      obtain ⟨inside, holds, _⟩ := List.findIdx?_eq_some_iff_getElem.mp unnamed
      have bounded : place < 32 := by simpa using inside
      have empty : keymap.keycodes.indicatorNames[place] = none := by simpa using holds
      refine .inl ⟨place, ⟨bounded, fun name known => ?_⟩, rfl⟩
      simp [KeycodeTable.indicatorName, bounded, empty] at known
    | none =>
      refine .inr ⟨fun slot inside => ?_, rfl⟩
      -- Every indicator has a name, and the name of the map is not among them.
      have given : (keymap.keycodes.indicatorNames[slot]).isNone = false :=
        List.findIdx?_eq_none_iff.mp unnamed _ (by simp)
      obtain ⟨name, same⟩ := Option.isSome_iff_exists.mp (Option.isNone_eq_false_iff.mp given)
      have carried : keymap.keycodes.indicatorName slot = some name := by
        simp [KeycodeTable.indicatorName, inside, same]
      exact ⟨name, carried, fun own => slotNamed_eq_none named slot (own ▸ carried)⟩

theorem fresh_concat {rest : List IndicatorDraft} (alone : draft.name ∉ rest.map (·.name))
    (apart : ∀ other ∈ rest, ∀ pair ∈ bound, pair.1.name ≠ other.name) :
    ∀ other ∈ rest, ∀ pair ∈ bound ++ [(draft, place)], pair.1.name ≠ other.name := by
  intro other member pair among
  rcases List.mem_append.mp among with old | new
  · exact apart other member pair old
  · obtain rfl : pair = (draft, place) := by simpa using new
    exact fun same => alone (List.mem_map.mpr ⟨other, member, same.symm⟩)

theorem bindAllNamed_bindings {before : Keymap} {drafts : List IndicatorDraft}
    (bindings : Bindings before bound keymap) (distinct : (drafts.map (·.name)).Nodup)
    (fresh : ∀ draft ∈ drafts, ∀ pair ∈ bound, pair.1.name ≠ draft.name)
    (legal : ∀ draft ∈ drafts, draft.index ≤ 32) (unbound : List IndicatorDraft) :
    Gives (drafts.foldlM
      (fun (made : Keymap × List IndicatorDraft) draft => do
        let (keymap, left) ← bindNamed made.1 draft
        return (keymap, made.2 ++ left.toList))
      (keymap, unbound)) fun made =>
        ∃ more left, made.2 = unbound ++ left.map unnumbered
          ∧ (more.map Prod.fst ++ left).Perm drafts ∧ Bindings before (bound ++ more) made.1 := by
  -- What is bound and what is left grow with every map, so both are general here.
  induction drafts generalizing keymap bound unbound with
  | nil => exact .pure ⟨[], [], by simp, .nil, by simpa using bindings⟩
  | cons draft rest ih =>
    rw [List.foldlM_cons]
    obtain ⟨alone, distinct⟩ := List.nodup_cons.mp distinct
    have later : ∀ other ∈ rest, other.index ≤ 32 :=
      fun other member => legal other (List.mem_cons_of_mem _ member)
    have apart : ∀ other ∈ rest, ∀ pair ∈ bound, pair.1.name ≠ other.name :=
      fun other member => fresh other (List.mem_cons_of_mem _ member)
    -- One map is either left over, or bound where it fits.
    have step : Gives (do
        let (keymap, left) ← bindNamed keymap draft
        return (keymap, unbound ++ left.toList)) fun next : Keymap × List IndicatorDraft =>
          next = (keymap, unbound ++ [draft.unnumbered])
            ∨ ∃ place, draft.FitsAt keymap place
              ∧ next = (IndicatorDraft.bindAt keymap place draft, unbound) := by
      refine .bind (bindNamed_cases keymap draft (legal draft (by simp))) fun made known => ?_
      rcases known with rfl | ⟨place, fits, rfl⟩
      · exact .pure (.inl rfl)
      · exact .pure (.inr ⟨place, fits, by simp⟩)
    refine .bind step fun made known => ?_
    rcases known with rfl | ⟨place, fits, rfl⟩
    · refine (ih bindings distinct apart later _).mono ?_
      rintro made ⟨more, left, unbound, same, bindings⟩
      refine ⟨more, draft :: left, by simp [unbound], ?_, bindings⟩
      exact List.perm_middle.trans (same.cons draft)
    · have grown := bindings.bindAt fits (fresh draft (by simp))
      refine (ih grown distinct (fresh_concat alone apart) later _).mono ?_
      rintro made ⟨more, left, unbound, same, bindings⟩
      exact ⟨(draft, place) :: more, left, unbound, same.cons draft, by simpa using bindings⟩

theorem bindAllFree_bindings {before : Keymap} {left : List IndicatorDraft}
    {diagnostics : Diagnostics} {final : Keymap × Diagnostics}
    (bindings : Bindings before bound keymap) (distinct : (left.map (·.name)).Nodup)
    (fresh : ∀ draft ∈ left, ∀ pair ∈ bound, pair.1.name ≠ draft.name)
    (ran : bindAllFree (left.map unnumbered) keymap diagnostics = final) :
    ∃ more dropped, (more.map Prod.fst ++ dropped).Perm left
      ∧ Bindings before (bound ++ more) final.1 ∧ keymap.KeepsIndicatorNames final.1
      ∧ (∀ draft ∈ dropped, draft.FitsNowhere final.1)
      ∧ final.2.records = diagnostics.records ++ dropped.map droppedReport := by
  -- As before, what is bound grows; the reports grow by those on the dropped maps.
  induction left generalizing keymap bound diagnostics with
  | nil =>
    subst ran
    exact ⟨[], [], .nil, (List.append_nil bound).symm ▸ bindings, fun _ _ known => known, by simp,
      (List.append_nil _).symm⟩
  | cons draft rest ih =>
    obtain ⟨alone, distinct⟩ := List.nodup_cons.mp distinct
    have apart : ∀ other ∈ rest, ∀ pair ∈ bound, pair.1.name ≠ other.name :=
      fun other member => fresh other (List.mem_cons_of_mem _ member)
    have step : bindAllFree (rest.map unnumbered) (bindFree keymap draft.unnumbered diagnostics).1
        (bindFree keymap draft.unnumbered diagnostics).2 = final := by
      rw [← ran]
      simp only [bindAllFree, List.map_cons, List.foldlM_cons]
      rfl
    -- Without its number the map has the same name and comes to the same.
    have either : (∃ place, draft.FitsAt keymap place
          ∧ bindFree keymap draft.unnumbered diagnostics
            = (IndicatorDraft.bindAt keymap place draft, diagnostics))
        ∨ (draft.FitsNowhere keymap
          ∧ bindFree keymap draft.unnumbered diagnostics
            = (keymap, diagnostics.push draft.droppedReport)) :=
      bindFree_cases keymap draft.unnumbered diagnostics
    rcases either with ⟨place, fits, same⟩ | ⟨nowhere, same⟩
    · rw [same] at step
      have grown := bindings.bindAt fits (fresh draft (by simp))
      obtain ⟨more, dropped, all, bindings, kept, nowhere, reports⟩ :=
        ih grown distinct (fresh_concat alone apart) step
      refine ⟨(draft, place) :: more, dropped, all.cons draft, by simpa using bindings, ?_,
        nowhere, reports⟩
      exact fun slot name known => kept slot name (fits.keeps slot name known)
    · rw [same] at step
      obtain ⟨more, dropped, all, bindings, kept, others, reports⟩ :=
        ih bindings distinct apart step
      refine ⟨more, draft :: dropped, List.perm_middle.trans (all.cons draft), bindings, kept, ?_,
        ?_⟩
      · -- All names were given when the map was dropped, and none has changed since.
        exact List.forall_mem_cons.mpr ⟨nowhere.later kept, others⟩
      · simpa [Diagnostics.push] using reports

/-- The maps of a section, bound first where they ask to be and then where there is room, are
neither lost nor doubled: each is bound at one place of its own, or dropped with a warning as all
indicators have other names. -/
theorem bindAll_neither_lost_nor_doubled (keymap : Keymap) (drafts : List IndicatorDraft)
    (diagnostics : Diagnostics) (blank : keymap.compat.indicators = Vector.replicate 32 none)
    (distinct : (drafts.map (·.name)).Nodup) (legal : ∀ draft ∈ drafts, draft.index ≤ 32) :
    let named := bindAllNamed drafts keymap diagnostics
    let final := bindAllFree named.1.2 named.1.1 named.2
    ∃ (bound : List (IndicatorDraft × Nat)) (dropped : List IndicatorDraft),
      (bound.map Prod.fst ++ dropped).Perm drafts
        ∧ Bindings keymap bound final.1
        ∧ (∀ draft ∈ dropped, draft.FitsNowhere final.1)
        ∧ final.2.records = named.2.records ++ dropped.map droppedReport := by
  intro named final
  obtain ⟨early, left, unbound, parted, bindings⟩ :
      ∃ early left, named.1.2 = [] ++ left.map unnumbered
        ∧ (early.map Prod.fst ++ left).Perm drafts ∧ Bindings keymap ([] ++ early) named.1.1 :=
    bindAllNamed_bindings (.start blank) distinct (by simp) legal [] diagnostics
  -- The maps that are left over have names of their own among all the maps.
  have names : (early.map (·.1.name) ++ left.map (·.name)).Nodup := by
    have all := (parted.map (·.name)).nodup_iff.mpr distinct
    simpa [Function.comp_def] using all
  obtain ⟨_, distinct, apart⟩ := List.nodup_append.mp names
  have fresh : ∀ draft ∈ left, ∀ pair ∈ early, pair.1.name ≠ draft.name :=
    fun draft member pair among =>
      apart _ (List.mem_map_of_mem among) _ (List.mem_map_of_mem member)
  have ran : bindAllFree (left.map unnumbered) named.1.1 named.2 = final := by
    rw [← List.nil_append (left.map unnumbered), ← unbound]
  obtain ⟨late, dropped, rest, bindings, _, nowhere, reports⟩ :=
    bindAllFree_bindings bindings distinct fresh ran
  refine ⟨early ++ late, dropped, ?_, bindings, nowhere, reports⟩
  rw [List.map_append, List.append_assoc]
  exact (rest.append_left _).trans parted

/-- A keymap whose indicators all have names. -/
def allNamed : Keymap :=
  { Keymap.empty with
    keycodes := { KeycodeTable.empty with
      indicatorNames := Vector.ofFn fun slot => some s!"LED {slot.val}" } }

/-- A map that asks for an indicator by name, one that asks for the same indicator by its number,
and one that asks for none. -/
def rivals : List IndicatorDraft :=
  [{ IndicatorDraft.base with name := "LED 3" },
    { IndicatorDraft.base with name := "Caps", index := 4 },
    { IndicatorDraft.base with name := "Mouse Keys" }]

/-- Three maps of which one has the name of an indicator, where no indicator is without a name. -/
theorem rivals_neither_lost_nor_doubled :
    allNamed.compat.indicators = Vector.replicate 32 none ∧ (rivals.map (·.name)).Nodup
      ∧ (∀ draft ∈ rivals, draft.index ≤ 32)
      ∧ let named := bindAllNamed rivals allNamed (.atLevel 0)
        let final := bindAllFree named.1.2 named.1.1 named.2
        ∃ (bound : List (IndicatorDraft × Nat)) (dropped : List IndicatorDraft),
          (bound.map Prod.fst ++ dropped).Perm rivals
            ∧ Bindings allNamed bound final.1
            ∧ (∀ draft ∈ dropped, draft.FitsNowhere final.1)
            ∧ final.2.records = named.2.records ++ dropped.map droppedReport := by
  have distinct : (rivals.map (·.name)).Nodup := by decide
  have legal : ∀ draft ∈ rivals, draft.index ≤ 32 := by decide
  exact ⟨rfl, distinct, legal,
    bindAll_neither_lost_nor_doubled allNamed rivals (.atLevel 0) rfl distinct legal⟩

end IndicatorDraft

end Xkb
