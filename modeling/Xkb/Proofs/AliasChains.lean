import Mathlib.Data.List.Perm.Subperm
import Xkb.Proofs.Computation
import Xkb.Proofs.Definition
import Xkb.Section.Keycodes

/-! Chains of aliases: which aliases of a section stand for keys, and for which. -/

namespace Xkb

theorem find?_key_eq {α β : Type} [BEq β] [LawfulBEq β] {key : α → β} {list : List α} {item : α}
    (distinct : (list.map key).Nodup) (member : item ∈ list) :
    list.find? (key · == key item) = some item := by
  -- The item itself passes, and whatever is found has its key.
  cases located : list.find? (key · == key item) with
  | none => exact absurd (List.find?_eq_none.mp located item member) (by simp)
  | some found =>
    have same : key found = key item := by simpa using List.find?_some located
    rw [eq_of_key_eq distinct (List.mem_of_find?_eq_some located) member same]

/-- Whether a name is on a key. -/
def KeycodeTable.onKey (table : KeycodeTable) (name : KeyName) : Bool :=
  (table.findNamed name 0).isSome

namespace KeycodeContents

variable {aliases : List AliasDefinition} {isKey : KeyName → Bool}

/-- A name leads to the name of a key: it is that name, or it is on no key and defined as an alias
for a name that leads there. The number counts the definitions on the way. -/
inductive LeadsIn (aliases : List AliasDefinition) (isKey : KeyName → Bool) :
    Nat → KeyName → KeyName → Prop where
  | key {name : KeyName} (onKey : isKey name = true) : LeadsIn aliases isKey 0 name name
  | step {steps : Nat} {name real : KeyName} {known : AliasDefinition} (noKey : isKey name = false)
      (member : known ∈ aliases) (named : known.name = name)
      (rest : LeadsIn aliases isKey steps known.real real) :
      LeadsIn aliases isKey (steps + 1) name real

/-- The first name on a key to which the definitions of aliases lead from a name. -/
def LeadsTo (aliases : List AliasDefinition) (isKey : KeyName → Bool) (name real : KeyName) : Prop :=
  ∃ steps, LeadsIn aliases isKey steps name real

variable {steps limit : Nat} {real : KeyName} {seen : List KeyName} {known : AliasDefinition}

theorem LeadsIn.onKey {name : KeyName} (leads : LeadsIn aliases isKey steps name real) :
    isKey real = true := by
  induction leads with
  | key onKey => exact onKey
  | step _ _ _ _ ih => exact ih

theorem LeadsIn.steps_eq (distinct : (aliases.map (·.name)).Nodup) {others : Nat}
    {name other : KeyName} (leads : LeadsIn aliases isKey steps name real)
    (leadsToo : LeadsIn aliases isKey others name other) : steps = others := by
  -- Both chains go on or end together, since a name is on a key or it is not.
  induction leads generalizing others with
  | key onKey =>
    cases leadsToo with
    | key _ => rfl
    | step noKey _ _ _ => simp [onKey] at noKey
  | step noKey member named _ ih =>
    cases leadsToo with
    | key onKey => simp [onKey] at noKey
    | step _ memberToo namedToo rest =>
      -- Both ways on go through the one definition of the name.
      cases eq_of_key_eq distinct member memberToo (named.trans namedToo.symm)
      rw [ih rest]

theorem followAliases_of_leadsIn (distinct : (aliases.map (·.name)).Nodup) {name : KeyName}
    (leads : LeadsIn aliases isKey steps name real)
    (before : ∀ earlier ∈ seen, ∃ more > steps, LeadsIn aliases isKey more earlier real)
    (enough : steps < limit) : followAliases aliases isKey limit seen name = some real := by
  -- The names on the way are further from the key than the one that is reached.
  induction leads generalizing limit seen with
  | key onKey =>
    obtain ⟨limit, rfl⟩ := Nat.exists_eq_add_of_lt enough
    simp [followAliases, onKey]
  | @step steps name real known noKey member named rest ih =>
    obtain ⟨more, rfl⟩ : ∃ more, limit = more + 1 := ⟨limit - 1, by omega⟩
    have located : aliases.find? (·.name == name) = some known :=
      named ▸ find?_key_eq distinct member
    -- A name that was seen would be both as far from the key as this one and further.
    have fresh : seen.contains name = false := by
      rw [Bool.eq_false_iff, ne_eq, List.contains_iff_mem]
      intro again
      obtain ⟨further, above, leadsToo⟩ := before name again
      have same := LeadsIn.steps_eq distinct (.step noKey member named rest) leadsToo
      omega
    simp only [followAliases, noKey, located, fresh]
    refine ih ?_ (by omega)
    -- The name is one step further from the key than the one that it stands for.
    intro earlier onTheWay
    rcases List.mem_cons.mp onTheWay with rfl | early
    · exact ⟨steps + 1, by omega, .step noKey member named rest⟩
    · obtain ⟨further, above, leadsToo⟩ := before earlier early
      exact ⟨further, by omega, leadsToo⟩

theorem leadsTo_of_followAliases {name : KeyName}
    (followed : followAliases aliases isKey limit seen name = some real) (onKey : isKey real = true) :
    LeadsTo aliases isKey name real := by
  -- The chain is followed one definition at a time, until the limit runs out.
  induction limit generalizing seen name with
  | zero => cases followed
  | succ limit ih =>
    rw [followAliases] at followed
    cases isReal : isKey name with
    | true =>
      simp only [isReal, if_true, Option.some.injEq] at followed
      exact ⟨0, followed ▸ .key isReal⟩
    | false =>
      simp only [isReal, Bool.false_eq_true, if_false] at followed
      split at followed
      · -- The chain ends in a name that is on no key.
        cases followed
        simp [isReal] at onKey
      · next known located =>
        split at followed
        · -- A chain that comes back to a name has no end.
          cases followed
        · obtain ⟨steps, rest⟩ := ih followed
          have named : known.name = name := by simpa using List.find?_some located
          exact ⟨steps + 1, .step isReal (List.mem_of_find?_eq_some located) named rest⟩

/-- No chain is cut short by the limit: the names on the way are different names of aliases, so there
are no more of them than aliases. -/
theorem followAliases_limit {other : Nat} (name : KeyName) (different : seen.Nodup)
    (defined : ∀ earlier ∈ seen, earlier ∈ aliases.map (·.name))
    (enough : aliases.length < limit + seen.length)
    (otherEnough : aliases.length < other + seen.length) :
    followAliases aliases isKey limit seen name = followAliases aliases isKey other seen name := by
  -- One limit falls and the list of names grows, so that their sum stays above the aliases.
  induction limit generalizing other seen name with
  | zero =>
    have few := different.length_le_of_subset defined
    rw [List.length_map] at few
    omega
  | succ limit ih =>
    have few := different.length_le_of_subset defined
    rw [List.length_map] at few
    obtain ⟨other, rfl⟩ : ∃ less, other = less + 1 := ⟨other - 1, by omega⟩
    simp only [followAliases]
    split
    · rfl
    · split
      · rfl
      · next known located =>
        split
        · rfl
        · next fresh =>
          -- The name joins the list: it is the name of an alias and is not in there yet.
          have named : known.name = name := by simpa using List.find?_some located
          have nameDefined : name ∈ aliases.map (·.name) :=
            named ▸ List.mem_map_of_mem (List.mem_of_find?_eq_some located)
          have stillDifferent : (name :: seen).Nodup :=
            List.nodup_cons.mpr ⟨by simpa using fresh, different⟩
          have stillDefined : ∀ earlier ∈ name :: seen, earlier ∈ aliases.map (·.name) := by
            intro earlier member
            rcases List.mem_cons.mp member with rfl | early
            · exact nameDefined
            · exact defined earlier early
          refine ih known.real stillDifferent stillDefined ?_ ?_
          · rw [List.length_cons]
            omega
          · rw [List.length_cons]
            omega

theorem followAliases_of_length_lt (member : known ∈ aliases) (enough : aliases.length < limit) :
    followAliases aliases isKey limit [known.name] known.real
      = followAliases aliases isKey (aliases.length + 1) [known.name] known.real := by
  have defined : ∀ earlier ∈ [known.name], earlier ∈ aliases.map (·.name) := by
    simpa using ⟨known, member, rfl⟩
  refine followAliases_limit known.real (by simp) defined ?_ ?_ <;>
    rw [List.length_singleton] <;> omega

/-- The key that an alias stands for, whatever is reported. -/
def keyBehind (aliases : List AliasDefinition) (isKey : KeyName → Bool) (known : AliasDefinition) :
    Option KeyAlias :=
  if isKey known.name then none
  else ((followAliases aliases isKey (aliases.length + 1) [known.name] known.real).filter isKey).map
    (⟨known.name, ·⟩)

theorem resolveAlias_eq (aliases : List AliasDefinition) (isKey : KeyName → Bool)
    (known : AliasDefinition) :
    Gives (resolveAlias aliases isKey known) (· = keyBehind aliases isKey known) := by
  -- Wherever the alias is left out, a report may come first.
  have leftOut (report : Report Unit) (nothing : keyBehind aliases isKey known = none) :
      Gives (do report; return none : Report (Option KeyAlias))
        (· = keyBehind aliases isKey known) :=
    .after fun _ => .pure nothing.symm
  simp only [resolveAlias]
  refine .after fun level => .ite (fun real => ?_) fun notReal => ?_
  · -- The name of a key is no alias.
    have nothing : keyBehind aliases isKey known = none := by rw [keyBehind, if_pos real]
    exact .ite (fun _ => leftOut _ nothing) fun _ => .pure nothing.symm
  · -- What follows depends on where the chain ends.
    have value : keyBehind aliases isKey known
        = ((followAliases aliases isKey (aliases.length + 1) [known.name] known.real).filter
          isKey).map (⟨known.name, ·⟩) := by rw [keyBehind, if_neg notReal]
    cases behind : followAliases aliases isKey (aliases.length + 1) [known.name] known.real with
    | none =>
      -- The chain comes back to itself.
      exact leftOut _ (by rw [value, behind]; rfl)
    | some real =>
      rw [behind, Option.filter_some] at value
      by_cases same : real = known.name
      · -- The name itself is on no key.
        rw [same, if_neg notReal] at value
        rw [same, Option.filter_some, if_neg (by simp)]
        exact leftOut _ value
      · simp only [Option.filter_some, bne_iff_ne, ne_eq, same, not_false_eq_true, if_true]
        refine .ite (fun onKey => .pure ?_) fun noKey => ?_
        · rw [value, if_pos onKey]
          rfl
        · have nothing : keyBehind aliases isKey known = none := by rw [value, if_neg noKey]; rfl
          exact .ite (fun _ => leftOut _ nothing) fun _ => .pure nothing.symm

/-- An alias is kept if its own name is on no key and its chain ends on one. -/
theorem keyBehind_eq_some {found : KeyAlias} :
    keyBehind aliases isKey known = some found ↔
      found.name = known.name ∧ isKey known.name = false ∧ isKey found.real = true ∧
        followAliases aliases isKey (aliases.length + 1) [known.name] known.real
          = some found.real := by
  rw [keyBehind]
  cases isKey known.name with
  | true => simp
  | false =>
    simp only [Bool.false_eq_true, if_false, true_and, Option.map_eq_some_iff,
      Option.filter_eq_some_iff]
    constructor
    · rintro ⟨real, ⟨followed, onKey⟩, rfl⟩
      exact ⟨rfl, onKey, followed⟩
    · rintro ⟨named, onKey, followed⟩
      exact ⟨found.real, ⟨followed, onKey⟩, by rw [← named]⟩

theorem followAliases_eq_some (distinct : (aliases.map (·.name)).Nodup) (member : known ∈ aliases)
    (noKey : isKey known.name = false) :
    isKey real = true ∧
        followAliases aliases isKey (aliases.length + 1) [known.name] known.real = some real ↔
      LeadsTo aliases isKey known.real real := by
  constructor
  · rintro ⟨onKey, followed⟩
    exact leadsTo_of_followAliases followed onKey
  · rintro ⟨steps, leads⟩
    refine ⟨leads.onKey, ?_⟩
    -- The limit may be raised as far as the chain is long.
    rw [← followAliases_of_length_lt member (show _ < aliases.length + 1 + steps by omega)]
    -- The alias itself is one step further from the key.
    refine followAliases_of_leadsIn distinct leads ?_ (by omega)
    intro earlier first
    rw [List.mem_singleton.mp first]
    exact ⟨steps + 1, by omega, .step noKey member rfl leads⟩

theorem resolveAliases_eq (aliases : List AliasDefinition) (isKey : KeyName → Bool) :
    Gives (resolveAliases aliases isKey) (· = aliases.filterMap (keyBehind aliases isKey)) := by
  refine .bind (.mapM_eq (resolveAlias_eq aliases isKey) aliases) fun made same => ?_
  refine .pure ?_
  rw [same, List.filterMap_map]
  rfl

theorem filterMap_keyBehind_names (list : List AliasDefinition) :
    ((list.filterMap (keyBehind aliases isKey)).map (·.name)).Sublist (list.map (·.name)) := by
  induction list with
  | nil => exact .slnil
  | cons known rest ih =>
    cases behind : keyBehind aliases isKey known with
    | none =>
      rw [List.filterMap_cons_none behind]
      exact ih.cons _
    | some found =>
      have named := (keyBehind_eq_some.mp behind).1
      rw [List.filterMap_cons_some behind, List.map_cons, named]
      exact ih.cons_cons _

theorem addAlias_distinct {contents : KeycodeContents} (new : AliasDefinition)
    (distinct : (contents.aliases.map (·.name)).Nodup) :
    Gives (contents.addAlias new) fun made => (made.aliases.map (·.name)).Nodup := by
  simp only [addAlias]
  split
  · next absent =>
    -- A name that was not found is new.
    refine .pure (nodup_map_concat distinct ?_)
    rw [List.mem_map]
    rintro ⟨known, member, named⟩
    exact List.find?_eq_none.mp absent known member (by simpa using named)
  · next old located =>
    -- The alias that is there is changed in its place, and keeps its name.
    have changed (update : AliasDefinition → AliasDefinition)
        (named : ∀ known, (update known).name = known.name) :
        ((changeFirst (·.name == new.name) update contents.aliases).map (·.name)).Nodup := by
      rw [map_changeFirst fun known _ => named known]
      exact distinct
    refine .after fun level => .ite (fun _ => .ite (fun _ => ?_) fun _ => ?_) fun _ => ?_
    · exact .after fun _ => .pure (changed _ fun _ => rfl)
    · exact .after fun _ => .pure (changed _ fun _ => rfl)
    · exact .pure (changed _ fun _ => rfl)

/-- A section with other aliases is compiled to a table with those that stand for its keys. -/
theorem apply_aliases (contents : KeycodeContents) (name : Option String) (table : KeycodeTable) :
    Gives (contents.apply name table) fun made =>
      made.aliases = contents.aliases.filterMap (keyBehind contents.aliases made.onKey) := by
  -- Aliases come last, when the names and the indicators are in their places.
  simp only [apply]
  generalize contents.indicators.foldl applyIndicator _ = named
  refine .bind (resolveAliases_eq contents.aliases named.onKey) fun made same => ?_
  exact .pure same

end KeycodeContents

/-- The aliases of a table are, in their order and once each, the definitions whose own names are on
no key and that lead to one, and they are found on the keys that they lead to. -/
structure KeycodeTable.ResolvesAliases (table : KeycodeTable) (definitions : List AliasDefinition) :
    Prop where
  mem_iff : ∀ known, known ∈ table.aliases ↔ table.onKey known.name = false ∧
    ∃ definition ∈ definitions, definition.name = known.name ∧
      KeycodeContents.LeadsTo definitions table.onKey definition.real known.real
  inOrder : (table.aliases.map (·.name)).Sublist (definitions.map (·.name))
  once : (table.aliases.map (·.name)).Nodup
  found : ∀ known ∈ table.aliases, table.findKey known.name 0 = table.findNamed known.real 0 ∧
    (table.findKey known.name 0).isSome = true

theorem KeycodeTable.resolvesAliases {table : KeycodeTable} {definitions : List AliasDefinition}
    (distinct : (definitions.map (·.name)).Nodup)
    (resolved : table.aliases
      = definitions.filterMap (KeycodeContents.keyBehind definitions table.onKey)) :
    table.ResolvesAliases definitions := by
  have mem_iff (known : KeyAlias) : known ∈ table.aliases ↔ table.onKey known.name = false ∧
      ∃ definition ∈ definitions, definition.name = known.name ∧
        KeycodeContents.LeadsTo definitions table.onKey definition.real known.real := by
    rw [resolved, List.mem_filterMap]
    constructor
    · rintro ⟨definition, member, behind⟩
      obtain ⟨named, noKey, ends⟩ := KeycodeContents.keyBehind_eq_some.mp behind
      exact ⟨named ▸ noKey, definition, member, named.symm,
        (KeycodeContents.followAliases_eq_some distinct member noKey).mp ends⟩
    · rintro ⟨noKey, definition, member, named, leads⟩
      rw [← named] at noKey
      exact ⟨definition, member, KeycodeContents.keyBehind_eq_some.mpr ⟨named.symm, noKey,
        (KeycodeContents.followAliases_eq_some distinct member noKey).mpr leads⟩⟩
  have inOrder : (table.aliases.map (·.name)).Sublist (definitions.map (·.name)) :=
    resolved ▸ KeycodeContents.filterMap_keyBehind_names definitions
  have once := inOrder.nodup distinct
  refine ⟨mem_iff, inOrder, once, fun known member => ?_⟩
  obtain ⟨noKey, definition, -, -, steps, leads⟩ := (mem_iff known).mp member
  -- The alias is looked up by its name, which is on no key.
  have absent : table.findNamed known.name 0 = none := by simpa [onKey] using noKey
  have real : table.realName known.name = some known.real := by
    rw [realName, find?_key_eq once member, Option.map_some]
  have same : table.findKey known.name 0 = table.findNamed known.real 0 := by
    rw [findKey, absent, real]
    rfl
  exact ⟨same, same ▸ leads.onKey⟩

end Xkb
