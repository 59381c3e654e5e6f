import Xkb.Proofs.Section.KeyNames

/-! Keys that are added under an alias and under the name it stands for: the keys come out the same
as long as no two of them are one key under different names. -/

namespace Xkb

namespace KeycodeTable

/-- A change of names that takes some aliases to what they stand for, and with one alias of a key all
of them. -/
structure Resolves (keycodes : KeycodeTable) (named : KeyName → KeyName) : Prop where
  flat : keycodes.Flat
  isAlias : ∀ name, named name ≠ name → keycodes.realName name = some (named name)
  even : ∀ name other, named name ≠ name → keycodes.realName other = some (named name) →
    named other = named name

namespace Resolves

variable {keycodes : KeycodeTable} {named : KeyName → KeyName} (resolves : keycodes.Resolves named)

include resolves

variable {name : KeyName}

theorem stays (noAlias : keycodes.realName name = none) : named name = name := by
  by_cases same : named name = name
  · exact same
  · have isAlias := resolves.isAlias name same
    rw [noAlias] at isAlias
    cases isAlias

theorem real {other : KeyName} (isAlias : keycodes.realName name = some other) :
    named other = other :=
  resolves.stays (resolves.flat.realName_eq_none isAlias)

theorem again (name : KeyName) : named (named name) = named name := by
  by_cases same : named name = name
  · rw [same, same]
  · exact resolves.real (resolves.isAlias name same)

theorem not_alias {real other : KeyName} (isAlias : keycodes.realName name = some real)
    (differs : named other ≠ other) : named other ≠ name := by
  intro reached
  have noAlias := resolves.flat.realName_eq_none (resolves.isAlias other differs)
  rw [reached, isAlias] at noAlias
  cases noAlias

theorem unmoved {real other : KeyName} (isAlias : keycodes.realName name = some real)
    (same : named name = name) (differs : named other ≠ other) : named other ≠ real := by
  intro reached
  -- The alias that stays would be changed as well.
  have alsoMoved := resolves.even other name differs (reached ▸ isAlias)
  exact resolves.not_alias isAlias differs (alsoMoved.symm.trans same)

end Resolves

end KeycodeTable

/-- The statement with another name for the key that it defines. -/
def Statement.rename (named : KeyName → KeyName) : Statement → Statement
  | .keySymbols merge name body => .keySymbols merge (named name) body
  | other => other

/-- A statement defines a key of a name, in a mode if it states one. -/
def Statement.Defines (statement : Statement) (merge : MergeMode) (name : KeyName) : Prop :=
  ∃ body, statement = .keySymbols merge name body

namespace SymbolContents

/-- Among the names, those of one key are a certain name or what it is changed to. -/
def Fits (named : KeyName → KeyName) (new : KeyName) (names : List KeyName) : Prop :=
  ∀ old ∈ names, named old = named new → old = new ∨ old = named new

/-- Names of different keys, where a name that would be changed is one of certain names, and where
certain names are found again if others are changed to them. -/
structure Kept (named : KeyName → KeyName) (sole shown : KeyName → Prop) (names : List KeyName) :
    Prop where
  distinct : (names.map named).Nodup
  sole : ∀ name ∈ names, named name ≠ name → sole name
  shown : ∀ name, shown name → ∀ other, named other ≠ other → named other = name →
    name ∈ names.map named

variable {keycodes : KeycodeTable} {named : KeyName → KeyName} {sole shown : KeyName → Prop}
  {new : KeyName} {names : List KeyName}

/-- More names may be left as they are, and fewer have to be found again. -/
theorem Kept.mono (kept : Kept named sole shown names) {wider narrower : KeyName → Prop}
    (wide : ∀ name, sole name → wider name)
    (narrow : ∀ name, narrower name → ∀ other, named other ≠ other → named other = name →
      shown name) : Kept named wider narrower names where
  distinct := kept.distinct
  sole name member differs := wide name (kept.sole name member differs)
  shown name known other differs reached :=
    kept.shown name (narrow name known other differs reached) other differs reached

theorem Kept.nil (sole : KeyName → Prop) : Kept named sole (fun _ => False) [] where
  distinct := List.nodup_nil
  sole _ member := absurd member List.not_mem_nil
  shown _ none := none.elim

/-- The key that a key is merged with, with the names as they are and with the names changed: it is
the same one, if there is one. -/
theorem found_named (resolves : keycodes.Resolves named) (distinct : (names.map named).Nodup)
    (fits : Fits named new names) :
    Option.Rel (fun name other => ∀ old ∈ names, named old = other ↔ old = name)
      (mergedName keycodes names new) (mergedName keycodes (names.map named) (named new)) := by
  -- Changed names tell the keys apart as their own names do.
  have same {known : KeyName} (member : known ∈ names) (old : KeyName) (oldMember : old ∈ names) :
      named old = named known ↔ old = known :=
    ⟨eq_of_key_eq distinct oldMember member, congrArg named⟩
  simp only [mergedName]
  by_cases here : new ∈ names
  · rw [if_pos here, if_pos (List.mem_map_of_mem here)]
    exact .some (same here)
  rw [if_neg here]
  by_cases there : named new ∈ names.map named
  · -- The key is there under another name, which has to be the one that the new name stands for.
    obtain ⟨old, member, reached⟩ := List.mem_map.mp there
    have known : old = named new :=
      (fits old member reached).resolve_left fun itself => here (itself ▸ member)
    have differs : named new ≠ new := fun itself => here (itself ▸ known ▸ member)
    rw [if_pos there, resolves.isAlias new differs, Option.filter_some,
      if_pos (by simpa using known ▸ member)]
    refine .some fun other otherMember => ?_
    rw [← known, ← same member other otherMember, reached, known]
  rw [if_neg there]
  by_cases differs : named new = new
  · -- The new name is not changed, and nor is another alias of what it stands for.
    rw [differs]
    cases isAlias : keycodes.realName new with
    | none => exact .none
    | some real =>
      have sameReal := resolves.real isAlias
      have sameKnown : real ∈ names.map named ↔ real ∈ names := by
        constructor
        · intro member
          obtain ⟨old, oldMember, reached⟩ := List.mem_map.mp member
          by_cases moved : named old = old
          · rwa [← reached, moved]
          · exact absurd reached (resolves.unmoved isAlias differs moved)
        · exact fun member => sameReal ▸ List.mem_map_of_mem member
      simp only [Option.filter_some, sameKnown]
      by_cases known : real ∈ names
      · simp only [known, decide_true, if_true]
        refine .some fun old member => ?_
        rw [← same known old member, sameReal]
      · simp only [known, decide_false]
        exact .none
  · -- An alias is changed to a name that is no alias.
    have isAlias := resolves.isAlias new differs
    have absent : named new ∉ names := by
      intro member
      exact there (resolves.again new ▸ List.mem_map_of_mem member)
    rw [isAlias, resolves.flat.realName_eq_none isAlias, Option.filter_some,
      if_neg (by simpa using absent)]
    exact .none

theorem addKey_named {levels : Nat → Nat → Prop} {moved : Origin → Origin}
    (resolves : keycodes.Resolves named) {contents : SymbolContents} {new : KeyDraft}
    (distinct : ((contents.keys.map KeyDraft.name).map named).Nodup)
    (fits : Fits named new.name (contents.keys.map KeyDraft.name)) :
    MadeAlike levels moved named (contents.addKey keycodes new)
      ((contents.recast moved named).addKey keycodes (new.recast moved named)) := by
  have sameNames : (contents.recast moved named).keys.map KeyDraft.name =
      (contents.keys.map KeyDraft.name).map named := by
    simp [recast, KeyDraft.recast]
  have sameName : (new.recast moved named).name = named new.name := rfl
  have found := found_named resolves distinct fits
  rw [addKey_eq, addKey_eq, sameNames, sameName]
  revert found
  generalize mergedName keycodes (contents.keys.map KeyDraft.name) new.name = left
  generalize mergedName keycodes ((contents.keys.map KeyDraft.name).map named) (named new.name) = right
  intro found
  cases found with
  | none =>
    refine .pure ?_ id
    simp [recast, move]
  | @some name other told =>
    have toldApart : ∀ old ∈ contents.keys, (named old.name == other) = (old.name == name) := by
      intro old member
      rw [Bool.eq_iff_iff, beq_iff_eq, beq_iff_eq]
      exact told old.name (List.mem_map_of_mem member)
    refine .afterTold (mergeNamed_alike new toldApart) fun keys => ?_
    exact .pure rfl id

variable {replaces : Prop} {made : List KeyName}

theorem AddedName.mem (added : AddedName keycodes replaces new names made) {name : KeyName}
    (member : name ∈ made) :
    name ∈ names ∨ name = new := by
  cases added with
  | merged _ => exact .inl member
  | replaced _ _ _ _ =>
    rcases mem_changeFirst member with known | ⟨_, _, _, rfl⟩
    · exact .inl known
    · exact .inr rfl
  | appended _ => simpa using member

theorem AddedName.fresh (resolves : keycodes.Resolves named) (fits : Fits named new names)
    (fresh : ∀ old ∈ names, Apart keycodes old new) : named new ∉ names.map named := by
  intro member
  obtain ⟨old, known, reached⟩ := List.mem_map.mp member
  obtain ⟨differs, notReal⟩ := fresh old known
  have isReal := (fits old known reached).resolve_left differs
  -- The other name is not the new one, so that one is changed, as the alias that it is.
  exact notReal (isReal ▸ resolves.isAlias new fun same => differs (isReal.trans same))

theorem Kept.replaced_unmoved (kept : Kept named sole shown names)
    (resolves : keycodes.Resolves named) (fits : Fits named new names) {real : KeyName}
    (isAlias : keycodes.realName new = some real) (fresh : new ∉ names) (same : named new = new) :
    Kept named sole shown (changeFirst (· == real) (fun _ => new) names) where
  distinct := by
    have distinct := kept.distinct
    rw [List.Nodup, List.pairwise_map] at distinct ⊢
    refine pairwise_changeFirst distinct fun old member => ?_
    have apart : named old ≠ named new := by
      intro reached
      have itself := (fits old member reached).elim id (·.trans same)
      exact fresh (itself ▸ member)
    exact ⟨apart, apart.symm⟩
  sole name member differs := by
    rcases mem_changeFirst member with old | ⟨_, _, _, rfl⟩
    · exact kept.sole name old differs
    · exact absurd same differs
  shown name known other differs reached := by
    obtain ⟨old, member, told⟩ := List.mem_map.mp (kept.shown name known other differs reached)
    -- The name that is replaced is none that others are changed to.
    have notReal : old ≠ real := by
      intro itself
      rw [itself, resolves.real isAlias] at told
      exact resolves.unmoved isAlias same differs (reached.trans told.symm)
    exact List.mem_map.mpr ⟨old, mem_changeFirst_of_not member (by simpa using notReal), told⟩

theorem map_replaced (resolves : keycodes.Resolves named) {real : KeyName}
    (isAlias : keycodes.realName new = some real) (reached : named new = real)
    (names : List KeyName) :
    (changeFirst (· == real) (fun _ => new) names).map named = names.map named := by
  refine map_changeFirst (fun old found => ?_) names
  rw [eq_of_beq found, resolves.real isAlias, reached]

/-- A name that is changed may take the place of the one that it is changed to, if it may be left as
it is. -/
theorem Kept.replaced_moved (kept : Kept named sole shown names)
    (resolves : keycodes.Resolves named) {real : KeyName}
    (isAlias : keycodes.realName new = some real) (reached : named new = real) (isSole : sole new) :
    Kept named sole shown (changeFirst (· == real) (fun _ => new) names) := by
  have view := map_replaced resolves isAlias reached names
  refine ⟨view ▸ kept.distinct, fun name member differs => ?_, view ▸ kept.shown⟩
  rcases mem_changeFirst member with old | ⟨_, _, _, rfl⟩
  · exact kept.sole name old differs
  · exact isSole

/-- The names are kept when a key is added, if a name that would be changed is added to no key or
takes the place of another name only where it may be left as it is. -/
theorem Kept.added (kept : Kept named sole shown names) (resolves : keycodes.Resolves named)
    (fits : Fits named new names) (added : AddedName keycodes replaces new names made)
    (settles : named new ≠ new → replaces ∨ named new ∉ names.map named → sole new) :
    Kept named sole (fun name => shown name ∨ name = named new) made := by
  -- The names that had to be found again are found, so it is about the new one.
  have further {made : List KeyName} (keeps : Kept named sole shown made)
      (found : ∀ other, named other ≠ other → named other = named new → named new ∈ made.map named) :
      Kept named sole (fun name => shown name ∨ name = named new) made := by
    refine ⟨keeps.distinct, keeps.sole, fun name wanted other differs reached => ?_⟩
    rcases wanted with earlier | rfl
    · exact keeps.shown name earlier other differs reached
    · exact found other differs reached
  cases added with
  | merged known =>
    -- The names stay; the new one was found among them, or else what it is an alias for.
    refine further kept fun other differs reached => ?_
    rcases known with member | ⟨real, member, isAlias⟩
    · exact List.mem_map_of_mem member
    · by_cases same : named new = new
      · exact absurd (reached.trans same) (resolves.not_alias isAlias differs)
      · have isReal := resolves.isAlias new same
        rw [isAlias] at isReal
        rw [← Option.some.inj isReal, ← resolves.real isAlias]
        exact List.mem_map_of_mem member
  | @replaced real isAlias known fresh replacing =>
    -- The new name takes the place of the one it is an alias for, which makes a difference only if
    -- the change of names leaves this alias alone.
    by_cases same : named new = new
    · refine further (kept.replaced_unmoved resolves fits isAlias fresh same) ?_
      exact fun other differs reached =>
        absurd (reached.trans same) (resolves.not_alias isAlias differs)
    · have isReal := resolves.isAlias new same
      rw [isAlias] at isReal
      have sameReal : named new = real := (Option.some.inj isReal).symm
      have keeps := kept.replaced_moved resolves isAlias sameReal (settles same (.inl replacing))
      refine further keeps fun _ _ _ => ?_
      rw [map_replaced resolves isAlias sameReal]
      exact List.mem_map.mpr ⟨real, known, (resolves.real isAlias).trans sameReal.symm⟩
  | appended fresh =>
    -- A name at the end is that of a key which was not there under any name.
    have absent := AddedName.fresh resolves fits fresh
    refine ⟨nodup_map_concat kept.distinct absent, fun name member differs => ?_,
      fun name wanted other differs reached => ?_⟩
    · rcases List.mem_append.mp member with old | last
      · exact kept.sole name old differs
      · obtain rfl := List.mem_singleton.mp last
        exact settles differs (.inr absent)
    · rw [List.map_append, List.mem_append]
      rcases wanted with earlier | rfl
      · exact .inl (kept.shown name earlier other differs reached)
      · exact .inr (List.mem_singleton.mpr rfl)

section Adding

variable {levels : Nat → Nat → Prop} {moved : Origin → Origin} {contents : SymbolContents}

theorem addKey_kept (resolves : keycodes.Resolves named) {new : KeyDraft}
    (kept : Kept named sole shown (contents.keys.map KeyDraft.name))
    (fits : Fits named new.name (contents.keys.map KeyDraft.name))
    (settles : named new.name ≠ new.name → new.definition.merge = .replace ∨
      named new.name ∉ (contents.keys.map KeyDraft.name).map named → sole new.name) :
    Alike (AtLevels levels) (contents.addKey keycodes new)
      ((contents.recast moved named).addKey keycodes (new.recast moved named))
      fun made other => other = made.recast moved named ∧
        Kept named sole (fun name => shown name ∨ name = named new.name)
          (made.keys.map KeyDraft.name) ∧
        ∀ name ∈ made.keys.map KeyDraft.name,
          name ∈ contents.keys.map KeyDraft.name ∨ name = new.name := by
  have alike : MadeAlike levels moved named (contents.addKey keycodes new) _ :=
    addKey_named resolves kept.distinct fits
  refine (alike.alike.gives (addKey_names keycodes contents new)).mono fun made other known => ?_
  obtain ⟨told, added, -⟩ := known
  exact ⟨told, kept.added resolves fits added settles, fun name member => added.mem member⟩

/-- Keys of another section are added alike under their names and under changed ones, if what would
be changed of them may be left as it is. -/
theorem addKeys_named (resolves : keycodes.Resolves named) (mode : MergeMode) {keys : List KeyDraft}
    (kept : Kept named sole shown (contents.keys.map KeyDraft.name))
    (distinct : ((keys.map KeyDraft.name).map named).Nodup)
    (fits : ∀ key ∈ keys, Fits named key.name (contents.keys.map KeyDraft.name))
    (settles : ∀ key ∈ keys, named key.name ≠ key.name → sole key.name) :
    Alike (AtLevels levels)
      (keys.foldlM (fun contents key =>
        contents.addKey keycodes { key with definition := key.definition.inMode mode }) contents)
      ((keys.map (KeyDraft.recast moved named)).foldlM (fun contents key =>
        contents.addKey keycodes { key with definition := key.definition.inMode mode })
        (contents.recast moved named))
      fun made other => other = made.recast moved named ∧
        Kept named sole (fun name => shown name ∨ name ∈ (keys.map KeyDraft.name).map named)
          (made.keys.map KeyDraft.name) := by
  induction keys generalizing contents shown with
  | nil => exact .pure ⟨rfl, kept.mono (fun _ known => known) fun _ known _ _ _ => by simpa using known⟩
  | cons key rest ih =>
    rw [List.map_cons, List.foldlM_cons, List.foldlM_cons]
    rw [List.map_cons, List.map_cons, List.nodup_cons] at distinct
    -- The mode of the include does not touch the name.
    let new : KeyDraft := { key with definition := key.definition.inMode mode }
    have newFits : Fits named new.name (contents.keys.map KeyDraft.name) := fits key (by simp)
    have sameNew : { key.recast moved named with
        definition := (key.recast moved named).definition.inMode mode } = new.recast moved named := by
      simp only [new, KeyDraft.recast, KeyDraft.move, Definition.inMode_move]
    rw [sameNew]
    refine .bind (addKey_kept resolves kept newFits fun differs _ =>
      settles key (by simp) differs) ?_
    intro made other known
    obtain ⟨told, keeps, brings⟩ := known
    subst told
    -- A later key is another one than the key that was added.
    have restFits : ∀ later ∈ rest, Fits named later.name (made.keys.map KeyDraft.name) := by
      intro later member old oldMember reached
      rcases brings old oldMember with known | rfl
      · exact fits later (by simp [member]) old known reached
      · have again := List.mem_map_of_mem (f := named) (List.mem_map_of_mem (f := KeyDraft.name) member)
        exact absurd (reached ▸ again) distinct.1
    have restAlike := ih keeps distinct.2 restFits fun later member => settles later (by simp [member])
    refine restAlike.mono fun made other known => ⟨known.1, known.2.mono (fun _ isSole => isSole) ?_⟩
    intro name wanted _ _ _
    simpa [or_assoc] using wanted

/-- What another section holds is added alike with its keys under their names and under changed
ones. -/
theorem absorb_named (resolves : keycodes.Resolves named) (mode : MergeMode)
    {new old : SymbolContents} (kept : Kept named sole shown (old.keys.map KeyDraft.name))
    (distinct : ((new.keys.map KeyDraft.name).map named).Nodup)
    (fits : ∀ key ∈ new.keys, Fits named key.name (old.keys.map KeyDraft.name))
    (settles : ∀ key ∈ new.keys, named key.name ≠ key.name → sole key.name) :
    Alike (AtLevels levels) (absorb keycodes mode new old)
      (absorb keycodes mode (new.recast moved named) (old.recast moved named))
      fun made other => other = made.recast moved named ∧
        Kept named sole (fun name => shown name ∨ name ∈ (new.keys.map KeyDraft.name).map named)
          (made.keys.map KeyDraft.name) := by
  -- The names of the groups are merged first, which does not touch the keys.
  let grouped := { old with groupNames := mergeGroupNames mode new.groupNames old.groupNames }
  have keptStill : Kept named sole shown (grouped.keys.map KeyDraft.name) := kept
  refine .bind (addKeys_named resolves mode keptStill distinct fits settles)
    fun made other known => ?_
  refine .foldlM known fun entry _ made other known => ?_
  obtain ⟨told, keeps⟩ := known
  subst told
  have alike (entry : ModifierEntry) : MadeAlike levels moved named (made.addModifier entry)
      ((made.recast moved named).addModifier entry) := addModifier_alike made entry
  refine ((alike _).alike.gives (addModifier_eq made _)).mono fun next other known => ?_
  have keys : next.keys = made.keys := by rw [known.2]
  exact ⟨known.1, keys ▸ keeps⟩

/-- A statement that defines a key is handled alike under the name of the key and under a changed
one, and leaves the names kept if it is right. -/
theorem handleKey_named (resolves : keycodes.Resolves named) (modifiers : VirtualModifiers)
    (header : Header) {mode : MergeMode} {name : KeyName} (body : List Assignment)
    (kept : Kept named sole shown (contents.keys.map KeyDraft.name))
    (fits : Fits named name (contents.keys.map KeyDraft.name))
    (settles : named name ≠ name → mode = .replace ∨
      named name ∉ (contents.keys.map KeyDraft.name).map named → sole name) :
    Alike (AtLevels levels) (contents.handleKey ⟨modifiers, keycodes⟩ header mode name body)
      ((contents.recast moved named).handleKey ⟨modifiers, keycodes⟩ (header.move moved) mode
        (named name) body)
      fun made other => other = (made.1.recast moved named, made.2) ∧
        (made.2 = true → Kept named sole (fun given => shown given ∨ given = named name)
          (made.1.keys.map KeyDraft.name)) := by
  let start : KeyDraft := { contents.base with
    definition := { contents.base.definition with merge := mode, origin := header.origin }, name }
  -- The body may set defaults, but touches neither the list of keys nor the name and the mode.
  have read : Gives (contents.handleBody ⟨modifiers, keycodes⟩ start body) fun made =>
      contents.SameLists made.1.1 ∧ made.1.2.name = name ∧ made.1.2.definition.merge = mode :=
    handleBody_same _ contents start body
  have alike := @handleBody_alike levels moved named ⟨modifiers, keycodes⟩ contents start body
  refine .bind (alike.alike.gives read) ?_
  intro ⟨⟨next, key⟩, right⟩ other ⟨told, sameLists, sameName, sameMode⟩
  subst told
  refine .ite (fun _ => .pure ⟨rfl, nofun⟩) fun _ => ?_
  have moves := @KeyDraft.moveGroup_alike levels moved named false key next.group (header.name.getD "")
  refine .bind (moves.alike.gives (key.moveGroup_same _ _)) ?_
  intro ⟨new, right⟩ other ⟨told, newName, newDefinition, _⟩
  subst told
  refine .ite (fun _ => .pure ⟨rfl, nofun⟩) fun _ => ?_
  have isNamed : new.name = name := newName.trans sameName
  have inMode : new.definition.merge = mode :=
    (congrArg Definition.merge newDefinition).trans sameMode
  have added := @addKey_kept keycodes named sole shown levels moved next resolves new
    (sameLists.1 ▸ kept) (by rw [isNamed, sameLists.1]; exact fits)
    (by rw [isNamed, inMode, sameLists.1]; exact settles)
  refine .bind added fun made other known => ?_
  obtain ⟨told, keeps, -⟩ := known
  subst told
  exact .pure ⟨rfl, fun _ => isNamed ▸ keeps⟩

/-- A statement is handled alike under the name of its key and under a changed one, and leaves the
names kept if it is right. -/
theorem handle_named (resolves : keycodes.Resolves named) (modifiers : VirtualModifiers)
    (header : Header) (mode : MergeMode) {statement : Statement}
    (kept : Kept named sole shown (contents.keys.map KeyDraft.name))
    (fits : ∀ merge name, statement.Defines merge name →
      Fits named name (contents.keys.map KeyDraft.name))
    (settles : ∀ merge name, statement.Defines merge name → named name ≠ name →
      merge.or mode = .replace ∨ named name ∉ (contents.keys.map KeyDraft.name).map named →
        sole name) :
    Alike (AtLevels levels) (contents.handle ⟨modifiers, keycodes⟩ header mode statement)
      ((contents.recast moved named).handle ⟨modifiers, keycodes⟩ (header.move moved) mode
        (statement.rename named))
      fun made other => other = (made.1.recast moved named, made.2) ∧
        (made.2 = true → Kept named sole
          (fun given => shown given ∨ ∃ merge name, statement.Defines merge name ∧ given = named name)
          (made.1.keys.map KeyDraft.name)) := by
  -- A statement that defines no key leaves the keys as they are.
  have plain {right : Report (SymbolContents × Bool)} {mute : Bool}
      (none : ∀ merge name, ¬statement.Defines merge name)
      (alike : HandledAlike levels moved named mute
        (contents.handle ⟨modifiers, keycodes⟩ header mode statement) right) :
      Alike (AtLevels levels) (contents.handle ⟨modifiers, keycodes⟩ header mode statement) right
        fun made other => other = (made.1.recast moved named, made.2) ∧
          (made.2 = true → Kept named sole (fun given => shown given ∨
            ∃ merge name, statement.Defines merge name ∧ given = named name)
            (made.1.keys.map KeyDraft.name)) := by
    have same := handle_keys ⟨modifiers, keycodes⟩ contents header mode
      fun merge name body same => none merge name ⟨body, same⟩
    refine (alike.alike.gives same).mono fun made other known => ⟨known.1, fun _ => ?_⟩
    refine known.2 ▸ kept.mono (fun _ isSole => isSole) fun name wanted _ _ _ => ?_
    refine wanted.resolve_right ?_
    intro ⟨merge, given, defines, _⟩
    exact none merge given defines
  cases statement with
  | keySymbols merge name body =>
    refine (handleKey_named resolves modifiers header body kept (fits merge name ⟨body, rfl⟩)
      (settles merge name ⟨body, rfl⟩)).mono fun made other known => ⟨known.1, fun right => ?_⟩
    refine (known.2 right).mono (fun _ isSole => isSole) fun given wanted _ _ _ => ?_
    refine wanted.imp_right ?_
    intro ⟨_, _, ⟨_, same⟩, reached⟩
    cases same
    exact reached
  | assignment assigned =>
    exact plain (fun _ _ ⟨_, same⟩ => nomatch same) (handleAssignment_alike _ contents assigned)
  | modifierMap merge modifier keys =>
    exact plain (fun _ _ ⟨_, same⟩ => nomatch same)
      (@handleModifierMap_alike _ _ _ false contents _ modifier keys)
  | _ => exact @plain _ false (fun _ _ ⟨_, same⟩ => nomatch same) (.refuse rfl)

end Adding

section Including

/-- Names of included keys, none of which is changed or one that a name which may be left as it is
would be changed to. -/
def Guest (named : KeyName → KeyName) (sole : KeyName → Prop) (name : KeyName) : Prop :=
  named name = name ∧ ∀ other, named other ≠ other → sole other → named other ≠ name

/-- The contents of an included section, which are the same on both sides. -/
def Guests (named : KeyName → KeyName) (sole : KeyName → Prop) (left right : SymbolContents) : Prop :=
  left = right ∧ left.NamedBy (Guest named sole)

/-- The contents of the including section, with changed names on the right side. -/
def Hosts (named : KeyName → KeyName) (sole shown : KeyName → Prop) (left right : SymbolContents) :
    Prop :=
  right = left.recast id named ∧ Kept named sole shown (left.keys.map KeyDraft.name)

variable {contents : SymbolContents}

theorem NamedBy.recast_eq (guest : contents.NamedBy fun name => named name = name) :
    contents.recast id named = contents := by
  have sameKeys : contents.keys.map (KeyDraft.recast id named) = contents.keys := by
    refine (List.map_congr_left fun key member => ?_).trans (List.map_id _)
    have sameName : named key.name = key.name := guest.each key.name (List.mem_map_of_mem member)
    simp only [KeyDraft.recast, sameName]
    rfl
  simp only [recast, sameKeys, move_id]

variable {levels : Nat → Nat → Prop}

theorem NamedBy.kept (guest : contents.NamedBy (Guest named sole)) :
    Kept named sole (fun _ => False) (contents.keys.map KeyDraft.name) where
  distinct := by
    rw [(List.map_congr_left fun name member => (guest.each name member).1).trans (List.map_id _)]
    exact guest.distinct
  sole name member differs := absurd (guest.each name member).1 differs
  shown _ none := none.elim

/-- The including section goes alike behind what it includes. -/
theorem visits_named (resolves : keycodes.Resolves named) :
    AbsorbsAlike SymbolContents keycodes (AtLevels levels) id (Hosts named sole shown)
      (Guests named sole) (Hosts named sole shown) := by
  intro modifiers mode header new otherNew old otherOld ⟨told, kept⟩ ⟨sameOld, guest⟩
  subst told sameOld
  -- The included keys are the same under changed names.
  have sameOld : old.recast id named = old :=
    NamedBy.recast_eq ⟨fun name member => (guest.each name member).1, guest.distinct⟩
  have absorbed := @absorb_named keycodes named sole _ levels id resolves mode new old guest.kept
    kept.distinct (fun key _ name member reached =>
      .inr ((guest.each name member).1.symm.trans reached))
    fun key member differs => kept.sole key.name (List.mem_map_of_mem member) differs
  rw [sameOld] at absorbed
  refine .bind absorbed fun made other known => .pure ⟨⟨known.1, ?_⟩, rfl⟩
  exact known.2.mono (fun _ isSole => isSole) fun name wanted other differs reached =>
    .inr (kept.shown name wanted other differs reached)

/-- What is included stays the same when it is put together, and the including section goes alike
with what it includes. -/
theorem inclusive_named (resolves : keycodes.Resolves named) :
    Inclusive SymbolContents keycodes (AtLevels levels) id (Guests named sole)
      (Hosts named sole shown) where
  initial := rfl
  empty := ⟨rfl, fun _ member => absurd member List.not_mem_nil, List.nodup_nil⟩
  builtinGuest _ _ _ _ := .none
  builtinHost _ _ _ _ := .none
  meet := by
    intro modifiers mode header new otherNew old otherOld ⟨sameNew, newNamed⟩ ⟨sameOld, oldNamed⟩
    have alike := (@uniform_same levels keycodes).absorb modifiers mode header new otherNew old
      otherOld sameNew sameOld
    have named : Gives (SectionContents.absorb ⟨modifiers, keycodes⟩ mode header new old)
        fun made => made.1.NamedBy (Guest named sole) :=
      .bind (absorb_namedBy keycodes mode newNamed oldNamed) fun _ known => .pure known
    exact (alike.gives named).mono fun made other known => ⟨⟨known.1.1, known.2⟩, known.1.2⟩
  welcome := by
    intro modifiers mode header new otherNew old otherOld ⟨sameNew, guest⟩ ⟨told, kept⟩
    subst told sameNew
    have sameNew : new.recast id named = new :=
      NamedBy.recast_eq ⟨fun name member => (guest.each name member).1, guest.distinct⟩
    have absorbed := @absorb_named keycodes named sole shown levels id resolves mode new old kept
      guest.kept.distinct (fun key member name known reached => ?_)
      fun key member differs => absurd (guest.each key.name (List.mem_map_of_mem member)).1 differs
    · rw [sameNew] at absorbed
      refine .bind absorbed fun made other known => .pure ⟨⟨known.1, ?_⟩, rfl⟩
      exact known.2.mono (fun _ isSole => isSole) fun name wanted _ _ _ => .inl wanted
    · -- An included key that is there under a changed name would be one that stands alone.
      obtain ⟨same, apart⟩ := guest.each key.name (List.mem_map_of_mem member)
      by_cases differs : named name = name
      · exact .inr (differs.symm.trans reached)
      · exact absurd (reached.trans same) (apart name differs (kept.sole name known differs))

end Including

end SymbolContents

end Xkb
