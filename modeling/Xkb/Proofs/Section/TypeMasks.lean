import Xkb.Proofs.MergePolicy
import Xkb.Proofs.Section.KeyTypes
import Xkb.Proofs.Targets

/-! Which entries of a type belong to its modifiers: all of them, unless the type starts out with
modifiers that its body replaces after an entry. -/

namespace Xkb

namespace ModMask

theorem subsetOf_of_blank {mask : ModMask} (blank : mask.subsetOf .empty = true) (other : ModMask) :
    mask.subsetOf other = true := by
  have whole : mask.without .empty = mask := by simp [without, empty]
  rw [subsetOf, whole, isEmpty_iff] at blank
  rw [blank]
  exact empty_subsetOf other

end ModMask

namespace Assignment

/-- Whether an assignment in a body gives a type its modifiers. -/
def SetsMask (assigned : Assignment) : Prop :=
  assigned.ownField = some "modifiers"

instance (assigned : Assignment) : Decidable assigned.SetsMask :=
  inferInstanceAs (Decidable (_ = _))

/-- Whether an assignment in a body is about a set of modifiers of the type. -/
def SetsEntry (assigned : Assignment) : Prop :=
  assigned.ownField = some "map" ∨ assigned.ownField = some "preserve"

instance (assigned : Assignment) : Decidable assigned.SetsEntry :=
  inferInstanceAs (Decidable (_ ∨ _))

end Assignment

/-- Whether the body of a type gives the modifiers before any set of them. -/
def MaskFirst (body : List Assignment) : Prop :=
  body.Pairwise fun early late => ¬(early.SetsEntry ∧ late.SetsMask)

instance (body : List Assignment) : Decidable (MaskFirst body) :=
  inferInstanceAs (Decidable (body.Pairwise _))

/-- Whether a statement gives modifiers that types start out with, by itself or in a body. -/
def Statement.setsDefaultMask : Statement → Bool
  | .assignment assigned => assigned.defaultField == some "modifiers"
  | .keyType _ _ body =>
    body.any fun assigned => assigned.ownField.isNone && assigned.defaultField == some "modifiers"
  | _ => false

namespace TypeDraft

variable {draft : TypeDraft}

/-- Every set of modifiers that a type speaks of belongs to a mask. -/
structure Within (draft : TypeDraft) (mask : ModMask) : Prop where
  entries : ∀ entry ∈ draft.entries, entry.mods.subsetOf mask = true
  preserves : ∀ known ∈ draft.preserves, known.mods.subsetOf mask = true

/-- Every set of modifiers that a type speaks of belongs to its own. -/
def Inside (draft : TypeDraft) : Prop :=
  draft.Within draft.mask

/-- A later stage of the same type, with the same modifiers and further sets of them. -/
structure Extends (old new : TypeDraft) : Prop where
  name : new.name = old.name
  mask : new.mask = old.mask
  definition : new.definition = old.definition
  inside : old.Inside → new.Inside

namespace Extends

variable {first second third : TypeDraft}

theorem refl (draft : TypeDraft) : draft.Extends draft :=
  ⟨rfl, rfl, rfl, id⟩

theorem trans (early : first.Extends second) (late : second.Extends third) : first.Extends third :=
  ⟨late.name.trans early.name, late.mask.trans early.mask, late.definition.trans early.definition,
    late.inside ∘ early.inside⟩

end Extends

variable {made : TypeDraft}

theorem AddsEntry.extends {new : MapEntry} (fits : new.mods.subsetOf draft.mask = true)
    (adds : draft.AddsEntry new made) : draft.Extends made := by
  rcases adds with rfl | ⟨entries, rfl, -, known⟩
  · exact .refl made
  · refine ⟨rfl, rfl, rfl, fun inside => ⟨fun entry member => ?_, inside.preserves⟩⟩
    rcases known entry member with old | rfl
    · exact inside.entries entry old
    · exact fits

theorem AddsPreserve.extends {new : PreserveEntry} (fits : new.mods.subsetOf draft.mask = true)
    (adds : draft.AddsPreserve new made) : draft.Extends made := by
  obtain ⟨preserves, rfl, known⟩ := adds
  refine ⟨rfl, rfl, rfl, fun inside => ⟨inside.entries, fun other member => ?_⟩⟩
  rcases known other member with old | rfl
  · exact inside.preserves other old
  · exact fits

variable {name : String} {mask : ModMask}

/-- Adding the name of a level touches nothing but names and levels. -/
theorem AddsName.eq {level : Nat} {clobber : Bool} (adds : draft.AddsName level name clobber made) :
    made = { draft with levels := made.levels, levelNames := made.levelNames } := by
  rcases adds with ⟨rfl, -⟩ | ⟨rfl, -⟩ <;> rfl

variable {field : String} {given : Option (Nat × String)} {next : TypeDraft × Bool}

theorem Sets.mask_eq (sets : draft.Sets field given next) (other : field ≠ "modifiers") :
    next.1.mask = draft.mask := by
  cases sets with
  | nothing => rfl
  | mask => exact absurd rfl other
  | entry fits _ adds => exact (adds.extends fits).mask
  | preserve fits _ adds => exact (adds.extends fits).mask
  | name _ adds => rw [adds.eq]

theorem Sets.name_eq (sets : draft.Sets field given next) : next.1.name = draft.name := by
  cases sets with
  | entry fits _ adds => exact (adds.extends fits).name
  | preserve fits _ adds => exact (adds.extends fits).name
  | name _ adds => rw [adds.eq]
  | _ => rfl

/--
A type in the middle of its body whose sets of modifiers belong to its modifiers, and will belong to
those it ends up with.

The modifiers are there to stay once they are given, or if the rest of the body does not give them.
Otherwise every set so far fits whatever modifiers may come.
That goes on, since the type has none yet, or since the rest of the body gives them first.
-/
structure Steady (draft : TypeDraft) (rest : List Assignment) : Prop where
  inside : draft.Inside
  lasting : draft.definition.defines maskField = true ∨ (∀ later ∈ rest, ¬later.SetsMask) ∨
    (∀ mask, draft.Within mask) ∧ (draft.mask = .empty ∨ MaskFirst rest)

variable {assigned : Assignment} {rest : List Assignment}

theorem Steady.tail (steady : draft.Steady (assigned :: rest)) : draft.Steady rest := by
  refine ⟨steady.inside, ?_⟩
  rcases steady.lasting with given | never | ⟨free, blank | first⟩
  · exact .inl given
  · exact .inr (.inl fun later member => never later (List.mem_cons_of_mem _ member))
  · exact .inr (.inr ⟨free, .inl blank⟩)
  · exact .inr (.inr ⟨free, .inr first.of_cons⟩)

/-- Further sets of modifiers leave a type steady. -/
theorem Steady.extends (steady : draft.Steady (assigned :: rest)) (entered : assigned.SetsEntry)
    (grows : draft.Extends made) : made.Steady rest := by
  have inside := grows.inside steady.inside
  refine ⟨inside, ?_⟩
  rcases steady.lasting with given | never | ⟨free, blank | first⟩
  · exact .inl (grows.definition ▸ given)
  · exact .inr (.inl fun later member => never later (List.mem_cons_of_mem _ member))
  · -- What belongs to no modifiers at all fits whatever may come.
    have none : made.mask = .empty := grows.mask.trans blank
    refine .inr (.inr ⟨fun mask => ⟨fun entry member => ?_, fun known member => ?_⟩, .inl none⟩)
    · exact ModMask.subsetOf_of_blank (none ▸ inside.entries entry member) mask
    · exact ModMask.subsetOf_of_blank (none ▸ inside.preserves known member) mask
  · -- A body that gives the modifiers first does not give them any more.
    refine .inr (.inl fun later member given => ?_)
    exact (List.pairwise_cons.mp first).1 later member ⟨entered, given⟩

theorem Steady.sets (steady : draft.Steady (assigned :: rest))
    (own : assigned.ownField = some field) (sets : draft.Sets field given next) :
    next.1.Steady rest := by
  -- Only two kinds of assignments matter: those of the modifiers, and those of sets of them.
  cases sets with
  | nothing => exact steady.tail
  | mask mask first =>
    have given : (draft.definition.define maskField).defines maskField = true := by
      rw [Definition.defines_define]
      exact Bool.or_true _
    refine ⟨?_, .inl given⟩
    -- The modifiers are not there to stay, so the sets so far fit these as well.
    rcases steady.lasting with given | never | ⟨free, -⟩
    · rw [first] at given
      cases given
    · exact absurd own (never assigned List.mem_cons_self)
    · exact ⟨(free mask).entries, (free mask).preserves⟩
  | entry fits _ adds => exact steady.extends (.inl own) (adds.extends fits)
  | preserve fits _ adds => exact steady.extends (.inr own) (adds.extends fits)
  | name _ adds =>
    -- Neither the modifiers nor the sets have changed, but they are in another type.
    obtain ⟨inside, lasting⟩ := steady.tail
    rw [adds.eq]
    exact ⟨⟨inside.entries, inside.preserves⟩, lasting.imp_right (.imp_right fun ⟨free, rest⟩ =>
      ⟨fun mask => ⟨(free mask).entries, (free mask).preserves⟩, rest⟩)⟩

theorem start_steady {origin : Origin} {mode : MergeMode} (settled : mask = .empty ∨ MaskFirst rest) :
    Steady { start name origin mode with mask } rest := by
  have free (other : ModMask) : Within { start name origin mode with mask } other :=
    ⟨nofun, nofun⟩
  exact ⟨free mask, .inr (.inr ⟨free, settled⟩)⟩

theorem attach_within {entries : List TypeEntry}
    (within : ∀ entry ∈ entries, entry.mods.subsetOf mask = true) {known : PreserveEntry}
    (fits : known.mods.subsetOf mask = true) :
    ∀ entry ∈ attach entries known, entry.mods.subsetOf mask = true := by
  intro entry member
  simp only [attach] at member
  split at member
  · rcases mem_changeFirst member with old | ⟨old, listed, -, rfl⟩
    · exact within entry old
    · exact within old listed
  · rcases List.mem_append.mp member with old | last
    · exact within entry old
    · rw [List.mem_singleton.mp last]
      exact fits

theorem finish_within (inside : draft.Inside) :
    ∀ entry ∈ draft.finish.entries, entry.mods.subsetOf draft.finish.mods = true := by
  -- The entries come first, and what is preserved is attached to them one by one.
  refine List.foldlRecOn (motive := fun entries => ∀ entry ∈ entries,
    entry.mods.subsetOf draft.mask = true) draft.preserves attach ?_ ?_
  · intro entry member
    obtain ⟨old, kept, rfl⟩ := List.mem_map.mp member
    exact inside.entries old (List.mem_filter.mp kept).1
  · intro entries within known member
    exact attach_within within (inside.preserves known member)

end TypeDraft

theorem canonicalType_within (index : Nat) (modifiers : VirtualModifiers) :
    ∀ entry ∈ (canonicalType index modifiers).entries,
      entry.mods.subsetOf (canonicalType index modifiers).mods = true := by
  unfold canonicalType
  split
  · exact nofun
  · decide
  · decide
  · -- The keypad type is the only one that looks at the virtual modifiers.
    split
    · decide
    · simp [ModMask.subsetOf, ModMask.without, ModMask.union, ModMask.isEmpty, ModMask.shift, bit8]

namespace TypeContents

variable {supplied : Statement → Prop} {contents : TypeContents}

/-- Whether types start out without modifiers, by the statements that are at hand. -/
def StartsBlank (supplied : Statement → Prop) : Prop :=
  ∀ statement, supplied statement → statement.setsDefaultMask = false

/-- Whether the entries of a type of some name stay within its modifiers, by the statements that are
at hand: types start out without modifiers, or the bodies for the name give them first. -/
def Settles (supplied : Statement → Prop) (name : String) : Prop :=
  StartsBlank supplied ∨ ∀ merge body, supplied (.keyType merge name body) → MaskFirst body

/-- Contents of a types section whose entries stay within the modifiers of their types wherever the
statements at hand see to it. -/
structure Contained (supplied : Statement → Prop) (contents : TypeContents) : Prop where
  types : ∀ draft ∈ contents.types, Settles supplied draft.name → draft.Inside
  base : StartsBlank supplied → contents.base.mask = .empty

/-- A section without types, whatever its types start out with. -/
theorem Contained.withoutTypes (contained : contents.Contained supplied) :
    Contained supplied { empty with base := contents.base } :=
  ⟨nofun, contained.base⟩

theorem addType_contained (contained : contents.Contained supplied) {new : TypeDraft}
    (inside : Settles supplied new.name → new.Inside) :
    Gives (contents.addType new) fun made => made.1.Contained supplied := by
  refine (addType_adds contents new).mono fun made adds => ?_
  rcases adds with same | ⟨-, types, same, -, known⟩ <;> rw [same]
  · exact contained
  · refine ⟨fun draft member settles => ?_, contained.base⟩
    rcases known draft member with old | rfl
    · exact contained.types draft old settles
    · -- At most the number of levels is another than that of the new type.
      have within := inside settles
      exact ⟨within.entries, within.preserves⟩

variable {assigned : Assignment}

theorem SetsBase.contained (contained : contents.Contained supplied)
    (other : StartsBlank supplied → assigned.defaultField ≠ some "modifiers") {made : TypeContents}
    (sets : contents.SetsBase assigned made) : made.Contained supplied := by
  rcases sets with rfl | ⟨field, given, next, default, sets, rfl⟩
  · exact contained
  · refine ⟨contained.types, fun free => ?_⟩
    have apart : field ≠ "modifiers" := fun mask => other free (default.trans (congrArg some mask))
    exact (sets.mask_eq apart).trans (contained.base free)

/-- What a body has made before its last assignments: a type that is steady if it was. -/
def Reads (supplied : Statement → Prop) (draft : TypeDraft) (body rest : List Assignment)
    (made : (TypeContents × TypeDraft) × Bool) : Prop :=
  made.1.1.Contained supplied ∧ made.1.2.name = draft.name ∧
    (draft.Steady body → made.1.2.Steady rest)

/-- Whether an assignment in a body leaves alone the modifiers that types start out with, if all
statements at hand do. -/
def LeavesDefault (supplied : Statement → Prop) (assigned : Assignment) : Prop :=
  StartsBlank supplied → assigned.ownField = none → assigned.defaultField ≠ some "modifiers"

theorem SetsIn.reads (contained : contents.Contained supplied) {draft : TypeDraft}
    (leaves : LeavesDefault supplied assigned) {rest : List Assignment}
    {made : (TypeContents × TypeDraft) × Bool} (sets : contents.SetsIn draft assigned made) :
    Reads supplied draft (assigned :: rest) rest made := by
  cases sets with
  | nothing => exact ⟨contained, rfl, .tail⟩
  | base other _ sets =>
    exact ⟨sets.contained contained fun free => leaves free other, rfl, .tail⟩
  | own own sets => exact ⟨contained, sets.name_eq, fun steady => steady.sets own sets⟩

variable (modifiers : VirtualModifiers)

theorem handleBody_inside (body : List Assignment) (contained : contents.Contained supplied)
    (draft : TypeDraft) (leave : ∀ assigned ∈ body, LeavesDefault supplied assigned) :
    Gives (handleBody modifiers body contents draft) fun made =>
      made.1.1.Contained supplied ∧ made.1.2.name = draft.name ∧
        (draft.Steady body → made.1.2.Inside) := by
  -- The type is steady for what is left of the body, also where the body is given up.
  induction body generalizing contents draft with
  | nil => exact .pure ⟨contained, rfl, fun steady => steady.inside⟩
  | cons assigned rest ih =>
    refine .bind (handleBodyAssignment_sets modifiers contents draft assigned) ?_
    rintro ⟨⟨contents, next⟩, right⟩ sets
    obtain ⟨nextContained, named, steady⟩ :=
      sets.reads contained (leave assigned List.mem_cons_self)
    refine .ite (fun _ => .pure ?_) fun _ => ?_
    · exact ⟨nextContained, named, fun start => (steady start).inside⟩
    · refine (ih nextContained next fun later member =>
        leave later (List.mem_cons_of_mem _ member)).mono ?_
      rintro made ⟨madeContained, same, inside⟩
      exact ⟨madeContained, same.trans named, inside ∘ steady⟩

/-- What types start out with is added as far as it belongs to the modifiers of the type. -/
theorem complete_extends (base draft : TypeDraft) :
    Gives (complete modifiers base draft) draft.Extends := by
  refine complete_keeps modifiers (.refl draft) ?_ ?_ ?_
  · intro made next new _ known same fits adds
    exact known.trans (adds.extends (same ▸ fits))
  · intro made next new _ known same fits adds
    exact known.trans (adds.extends (same ▸ fits))
  · intro made next level name known _ adds
    rw [adds.eq]
    exact known.trans ⟨rfl, rfl, rfl, fun inside => ⟨inside.entries, inside.preserves⟩⟩

theorem handleType_contained (contained : contents.Contained supplied) (header : Header)
    (mode merge : MergeMode) (name : String) (body : List Assignment)
    (known : supplied (.keyType merge name body)) :
    Gives (contents.handleType modifiers header mode name body)
      fun made => made.1.Contained supplied := by
  -- The statement is at hand itself, so its body sets no defaults if none of them does.
  have leave : ∀ assigned ∈ body, LeavesDefault supplied assigned := by
    intro assigned member free own given
    have none := List.any_eq_false.mp (free _ known) assigned member
    simp [own, given] at none
  refine .bind (handleBody_inside modifiers body contained _ leave) ?_
  rintro ⟨⟨next, draft⟩, right⟩ ⟨nextContained, named, inside⟩
  refine .ite (fun _ => .pure nextContained) fun _ => ?_
  refine .bind (complete_extends modifiers next.base draft) fun made grows => ?_
  refine addType_contained nextContained fun settles => grows.inside (inside ?_)
  -- The type that is added has the name of the statement, whose body is one of those for it.
  rw [grows.name, named] at settles
  exact TypeDraft.start_steady (settles.imp contained.base fun first => first merge body known)

theorem handle_contained (contained : contents.Contained supplied) (header : Header)
    (mode : MergeMode) {statement : Statement} (known : supplied statement) :
    Gives (contents.handle modifiers header mode statement)
      fun made => made.1.Contained supplied := by
  cases statement with
  | keyType merge name body =>
    exact handleType_contained modifiers contained header (merge.or mode) merge name body known
  | assignment assigned =>
    refine (handleAssignment_sets modifiers contents assigned).mono fun made sets => ?_
    refine sets.contained contained fun blank => ?_
    simpa [Statement.setsDefaultMask] using blank _ known
  | _ => exact .after fun _ => .pure contained

theorem absorb_contained (mode : MergeMode) {new old : TypeContents}
    (newContained : new.Contained supplied) (oldContained : old.Contained supplied) :
    Gives (absorb mode new old) fun made => made.1.Contained supplied := by
  refine .foldlM oldContained fun made draft member contained => ?_
  have inside (settles : Settles supplied draft.name) :
      TypeDraft.Inside { draft with definition := draft.definition.inMode mode } :=
    have within := newContained.types draft member settles
    ⟨within.entries, within.preserves⟩
  exact .bind (addType_contained contained inside) fun next nextContained =>
    .pure nextContained

/-- Whatever is read, entries stay within the modifiers of their types as far as the statements at
hand see to it. -/
theorem maintains_contained (supplied : Statement → Prop) :
    Maintains TypeContents supplied (Contained supplied) where
  empty := ⟨nofun, fun _ => rfl⟩
  forTerm _ _ contained := contained.withoutTypes
  builtin _ _ _ _ built := nomatch built
  handle scope header mode _ _ known contained :=
    handle_contained scope.modifiers contained header mode known
  absorb _ mode _ _ _ newContained oldContained := absorb_contained mode newContained oldContained

theorem of_mem_finish {modifiers : VirtualModifiers} {type : KeyType}
    (member : type ∈ contents.finish modifiers) :
    (∃ draft ∈ contents.types, type = draft.finish) ∨
      ∃ index, type = canonicalType index modifiers := by
  rw [finish_eq] at member
  rcases List.mem_append.mp member with first | other
  · obtain ⟨head, -, rfl⟩ := List.mem_map.mp first
    simp only [slot]
    -- A canonical type is made up only where the section has none of its name.
    cases found : (contents.types.map TypeDraft.finish).find? (·.name == head.1.1) with
    | none => exact .inr ⟨head.2, rfl⟩
    | some type =>
      obtain ⟨draft, known, rfl⟩ := List.mem_map.mp (List.mem_of_find?_eq_some found)
      exact .inl ⟨draft, known, rfl⟩
  · obtain ⟨draft, kept, rfl⟩ := List.mem_map.mp other
    exact .inl ⟨draft, (List.mem_filter.mp kept).1, rfl⟩

end TypeContents

namespace Assembly

/--
The entries of the types in a table that is compiled belong to the modifiers of their type.

That holds of every type if no statement at hand gives types modifiers to start out with, and
otherwise of the types whose bodies give the modifiers before any set of them.
-/
theorem compilePart_entries_inside (assembly : Assembly) (mode : MergeMode) (part : Section)
    (kind : part.kind = .types) (succeeds : (compilePart mode part assembly).1.isSome) :
    ∀ type ∈ (compilePart mode part assembly).2.keymap.types.types,
      ((∀ statement, assembly.Supplies .types part statement → statement.setsDefaultMask = false) ∨
        ∀ merge body, assembly.Supplies .types part (.keyType merge type.name body) →
          MaskFirst body) →
      ∀ entry ∈ type.entries, entry.mods.subsetOf type.mods = true := by
  intro type member settles
  rw [compilePart_types_eq kind succeeds] at member
  have contained := reading_holds
    (TypeContents.maintains_contained (assembly.Supplies .types part)) mode
  rcases TypeContents.of_mem_finish member with ⟨draft, known, rfl⟩ | ⟨index, rfl⟩
  · exact draft.finish_within (contained.types draft known settles)
  · exact canonicalType_within index _

/-- A types section whose types start out with two modifiers and an entry: the first type gives its
modifiers before its entries, and the second one has those it started out with. -/
def startedPart : Section :=
  ⟨.types, "basic", 0,
    [.assignment ⟨.unspecified, some (.fieldRef "type" "modifiers"), some bothLocks⟩,
      .assignment ⟨.unspecified, some (.arrayRef (some "type") "map" (.ident "Lock")),
        some (.integer 2)⟩,
      .keyType .unspecified "SHIFTED"
        [⟨.unspecified, some (.ident "modifiers"), some (.ident "Shift")⟩,
          ⟨.unspecified, some (.arrayRef none "map" bothLocks), some (.integer 2)⟩],
      .keyType .unspecified "LOCKED"
        [⟨.unspecified, some (.arrayRef none "preserve" (.ident "Lock")), some (.ident "Lock")⟩]],
    []⟩
where
  bothLocks : Expr := .binary .add (.ident "Shift") (.ident "Lock")

/-- An entry is cut down to the modifiers of its type, and another one is left out. -/
theorem compilePart_entries_inside_started :
    let outcome := compilePart .override startedPart (.start 0 .empty)
    startedPart.kind = .types ∧ outcome.1.isSome ∧
      (∀ merge name body, (Assembly.start 0 .empty).Supplies .types startedPart
        (.keyType merge name body) → MaskFirst body) ∧
      (outcome.2.keymap.types.types.drop 4).map (fun type => (type.name, type.entries.length))
        = [("SHIFTED", 1), ("LOCKED", 1)] ∧
      ∀ type ∈ outcome.2.keymap.types.types, ∀ entry ∈ type.entries,
        entry.mods.subsetOf type.mods = true := by
  intro outcome
  have compiled : (compilePart .override startedPart (.start 0 .empty)).1.isSome := by
    decide +kernel
  have first : ∀ merge name body, (Assembly.start 0 .empty).Supplies .types startedPart
      (.keyType merge name body) → MaskFirst body := by
    rintro merge name body (own | ⟨file, sections, included, held, member, -⟩)
    · simp only [startedPart, List.mem_cons, Statement.keyType.injEq, reduceCtorEq, false_or,
        List.not_mem_nil, or_false] at own
      rcases own with ⟨-, -, rfl⟩ | ⟨-, -, rfl⟩ <;> decide
    · exact absurd (held.subset_allSections rfl member) List.not_mem_nil
  have inside := compilePart_entries_inside (.start 0 .empty) .override startedPart rfl compiled
  exact ⟨rfl, compiled, first, by decide +kernel, fun type member =>
    inside type member (.inr fun merge => first merge type.name)⟩

/-- A types section with a type that starts out with one modifier, makes an entry for it and then
gives another one. -/
def replacedPart : Section :=
  ⟨.types, "basic", 0,
    [.assignment ⟨.unspecified, some (.fieldRef "type" "modifiers"), some (.ident "Shift")⟩,
      .keyType .unspecified "X"
        [⟨.unspecified, some (.arrayRef none "map" (.ident "Shift")), some (.integer 2)⟩,
          ⟨.unspecified, some (.ident "modifiers"), some (.ident "Lock")⟩]], []⟩

/-- The entry is left outside of the modifiers that the type ends up with. -/
theorem compilePart_replaced_entry_outside :
    let outcome := compilePart .override replacedPart (.start 0 .empty)
    outcome.1.isSome ∧ ∃ type ∈ outcome.2.keymap.types.types, type.name = "X" ∧
      type.mods = .lock ∧ type.entries.map TypeEntry.mods = [.shift] ∧
      ModMask.shift.subsetOf .lock = false := by
  decide +kernel

end Assembly

end Xkb
