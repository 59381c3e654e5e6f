import Xkb.Proofs.Section.Cycles
import Xkb.Proofs.Section.Settled
import Xkb.Proofs.Section.Sharing

/-! A section that only includes another one is read as this other one is, one include deeper. -/

namespace Xkb

open Library
open SectionContents (absorb builtin forTerm)

/-- A section whose only statement includes another one. -/
structure Relay (texts : Library) (kind : SectionKind) (term : IncludeTerm)
    (through part : Section) (place : Origin) : Prop where
  only : ∃ text, through.statements = [.inclusion ⟨term.merge, text, [term]⟩]
  notSelf : term.isSelf = false
  leads : texts.target kind term = .ok (part, place)

/-- Where something is from, if what is compiled comes from a place of its own. -/
def Origin.relocate (place : Origin) : Origin → Origin
  | .main => place
  | origin => origin

section Relayed

variable {γ : Type} [SectionContents γ] {texts : Library} {term : IncludeTerm}
  {through part : Section} {place : Origin}

/-- A workspace in the midst of a single include, with what else a section was read with. -/
structure Workspace.Inside (texts : Library) (frame : Frame) (outer inner : Workspace) : Prop where
  modifiers : inner.modifiers = outer.modifiers
  level : inner.diagnostics.level = outer.diagnostics.level
  texts : texts.Extends inner.library
  stack : inner.library.stack = [frame]

theorem Reading.find_eq (kind : SectionKind) (file : String) (map : Option String)
    (workspace : Workspace) :
    (Reading.find kind file map : Reading _) workspace =
      let found := workspace.library.find kind file map workspace.diagnostics
      (found.1.1, ⟨workspace.modifiers, found.2, found.1.2⟩) :=
  rfl

variable {workspace : Workspace} {included : IncludeStatement} {keycodes : KeycodeTable}

theorem readTerm_eq (unparsed : texts.parsed = []) (extension : texts.Extends workspace.library)
    (unused : workspace.library.stack = [])
    (leads : texts.target (SectionContents.kind γ) term = .ok (part, place))
    (read : SectionReader Id γ) (parent : γ) :
    ∃ inner, workspace.Inside texts (frameTo (SectionContents.kind γ) term part) inner ∧
      readTerm read parent term workspace =
        let made := read part place ⟨.empty, forTerm term parent⟩ inner
        (.ok made.1, { made.2 with library := made.2.library.leave }) := by
  -- Looking for the section leaves the level as it is.
  have found := extension.find_alike
    (Lenient.atLevels fun level _ => level = workspace.diagnostics.level) extension unparsed
    (SectionContents.kind γ) term workspace.diagnostics workspace.diagnostics rfl
  obtain ⟨⟨-, isTarget, ⟨extended, sameStack⟩, -⟩, sameLevel⟩ := found
  rw [leads] at isTarget
  rw [unused] at sameStack
  generalize looked : workspace.library.find (SectionContents.kind γ) (term.file.getD "") term.map
    workspace.diagnostics = outcome at isTarget extended sameStack sameLevel
  obtain ⟨⟨found, library⟩, diagnostics⟩ := outcome
  cases isTarget
  -- Nothing is being followed, so the section is not found to be included in itself.
  have entered : library.enter (frameTo (SectionContents.kind γ) term part) =
      .ok { library with stack := [frameTo (SectionContents.kind γ) term part] } := by
    have sameStack : library.stack = [] := sameStack
    simp [Library.enter, sameStack]
  refine ⟨⟨workspace.modifiers, diagnostics,
    { library with stack := [frameTo (SectionContents.kind γ) term part] }⟩,
    ⟨rfl, sameLevel, ?_, rfl⟩, ?_⟩
  · exact ⟨extended.roots, extended.files, extended.sources, extended.parsed⟩
  · have finds : (Reading.find (SectionContents.kind γ) (term.file.getD "") term.map : Reading _)
        workspace = (.ok (part, place), ⟨workspace.modifiers, diagnostics, library⟩) := by
      rw [Reading.find_eq, looked]
    have enters : library.enter ⟨term.file.getD "", part.name, SectionContents.kind γ⟩ = _ := entered
    simp only [readTerm, bind, StateT.bind, finds, get, getThe, MonadStateOf.get, StateT.get, pure,
      enters]
    rfl

theorem MergeMode.or_self (mode : MergeMode) : mode.or mode = mode := by
  cases mode <;> rfl

/-- The draft under the name that its include statement gives it. -/
def Draft.named (draft : Draft γ) (text : String) : Draft γ :=
  { draft with header := { draft.header with name := some text } }

/-- Adds a draft that was read to another one, and tells whether the whole is free of errors. -/
def absorbInto (keycodes : KeycodeTable) (mode : MergeMode) (new old : Draft γ) :
    Reading (Draft γ × Bool) := do
  let made ← Draft.absorb (← Reading.scope keycodes) mode new old
  return (made, made.isClean)

/-- A single term is read with what the draft holds and then added to the draft. -/
theorem followInclude_of_term {read : SectionReader Id γ} {own : Draft γ}
    (notSelf : term.isSelf = false) (single : included.terms = [term])
    (plain : builtin term own.contents = none) :
    followInclude keycodes read own included = (do
      match ← readTerm read own.contents term with
      | .error error => failInclusion own included error
      | .ok draft =>
        absorbInto keycodes (term.merge.or included.merge) (draft.named included.text) own) := by
  -- The first term of a statement is taken whole, and there is no second one to merge with it.
  simp only [followInclude, single, notSelf, plain, ite_self]
  rfl

/-- Following an include of a single term: the section that it leads to is read and added. -/
theorem followInclude_single (plain : NeedsFiles γ) (notSelf : term.isSelf = false)
    (keycodes : KeycodeTable) (read : SectionReader Id γ) (own draft : Draft γ) (text : String)
    {after : Workspace}
    (reads : readTerm read own.contents term workspace = (.ok draft, after)) :
    followInclude keycodes read own ⟨term.merge, text, [term]⟩ workspace =
      let added := Draft.absorb ⟨after.modifiers, keycodes⟩ term.merge (draft.named text) own
        after.diagnostics
      ((added.1, added.1.isClean), { after with diagnostics := added.2 }) := by
  rw [followInclude_of_term notSelf rfl (plain term own.contents), MergeMode.or_self]
  simp only [bind, StateT.bind, reads]
  rfl

theorem Draft.absorb_begun (modifiers : VirtualModifiers) (mode : MergeMode) {new : Draft γ}
    {taken : γ} (clean : new.isClean = true)
    (takes : Gives (SectionContents.absorb ⟨modifiers, keycodes⟩ mode new.header new.contents
      SectionContents.empty) fun made => made = (taken, 0)) (name : String) :
    Gives (Draft.absorb ⟨modifiers, keycodes⟩ mode new (Draft.empty.begin name .main))
      fun made => made = ⟨⟨some name, .main, 0⟩, taken⟩ := by
  simp only [Draft.absorb, clean]
  refine .bind takes fun made same => .pure ?_
  rw [same]
  rfl

/-- Reading a section whose only statement is an include: if that is wrong, it is one more error. -/
theorem readSection_sole (only : through.statements = [.inclusion included])
    (keycodes : KeycodeTable) (limit : Nat) (mode : MergeMode) (origin : Origin)
    {draft made : Draft γ} {right : Bool} {after : Workspace}
    (follows : (followInclude keycodes (readSection keycodes limit .override)
      (draft.begin through.name origin) included : Reading _) workspace = ((made, right), after)) :
    ∃ diagnostics, (readSection keycodes (limit + 1) mode through origin draft : Reading _) workspace =
      (if right then made else made.addErrors 1, { after with diagnostics }) := by
  simp only [readSection, only, readStatements, readStatement, bind, StateT.bind, follows]
  -- Whether there are errors decides only on one more report.
  generalize (if right = true then made else made.addErrors 1) = counted
  split
  · exact ⟨_, rfl⟩
  · exact ⟨after.diagnostics, rfl⟩

/-- A section that relays another one is read by reading the other one within a single include, and
adding what it holds if it is free of errors. -/
theorem readSection_relay (plain : NeedsFiles γ) (unparsed : texts.parsed = [])
    (extension : texts.Extends workspace.library) (unused : workspace.library.stack = [])
    (relay : Relay texts (SectionContents.kind γ) term through part place)
    (starts : forTerm term SectionContents.empty = (SectionContents.empty : γ))
    (keycodes : KeycodeTable) (limit : Nat) (mode : MergeMode) :
    ∃ inner, workspace.Inside texts (frameTo (SectionContents.kind γ) term part) inner ∧
      let own := (readSection keycodes limit .override part place Draft.empty :
        Reading (Draft γ)) inner
      let whole := (readSection keycodes (limit + 1) mode through .main Draft.empty :
        Reading (Draft γ)) workspace
      whole.2.modifiers = own.2.modifiers ∧
        (own.1.isClean = false → whole.1.isClean = false) ∧
        ∀ taken, own.1.isClean = true →
          (∀ modifiers header, Gives (absorb ⟨modifiers, keycodes⟩ term.merge header
            own.1.contents SectionContents.empty) fun made => made = (taken, 0)) →
          whole.1 = ⟨⟨some through.name, .main, 0⟩, taken⟩ := by
  obtain ⟨text, only⟩ := relay.only
  obtain ⟨inner, inside, reads⟩ := readTerm_eq unparsed extension unused relay.leads
    (readSection keycodes limit .override) (SectionContents.empty : γ)
  have begins : (⟨.empty, forTerm term SectionContents.empty⟩ : Draft γ) =
      Draft.empty := by
    rw [starts]
    rfl
  rw [begins] at reads
  refine ⟨inner, inside, ?_⟩
  -- What was read inside is all that the rest depends on.
  generalize (readSection keycodes limit .override part place Draft.empty : Reading (Draft γ)) inner =
    own at reads ⊢
  obtain ⟨draft, after⟩ := own
  have followed := followInclude_single plain relay.notSelf keycodes
    (readSection keycodes limit .override) (Draft.empty.begin through.name .main : Draft γ) _ text reads
  obtain ⟨diagnostics, whole⟩ := readSection_sole only keycodes limit mode .main followed
  dsimp only at whole ⊢
  rw [whole]
  refine ⟨rfl, fun dirty => ?_, fun taken clean takes => ?_⟩
  · -- Errors inside are passed on, whether or not the include itself is right.
    have added : Gives (Draft.absorb ⟨after.modifiers, keycodes⟩ term.merge (draft.named text)
        (Draft.empty.begin through.name .main)) fun made => made.isClean = false :=
      Draft.absorb_dirty _ _ (.inl dirty)
    split
    · exact added after.diagnostics
    · exact Draft.addErrors_dirty _ (.inl (added after.diagnostics))
  · -- The section has a name by now, so the one that the include gives is not taken.
    have namedClean : (draft.named text).isClean = true := clean
    have added := Draft.absorb_begun after.modifiers term.merge namedClean (takes _ _) through.name
    rw [added after.diagnostics]
    rfl

end Relayed

namespace Library

/-- The includes of a section come to a certain one, maybe through other sections. -/
inductive Reaches (texts : Library) (kind : SectionKind) (frame : Frame) : Section → Prop
  | here {part found : Section} {term : IncludeTerm} {origin : Origin}
    (stands : term ∈ sectionTerms part) (notSelf : term.isSelf = false)
    (leads : texts.target kind term = .ok (found, origin))
    (comes : frameTo kind term found = frame) : Reaches texts kind frame part
  | further {part found : Section} {term : IncludeTerm} {origin : Origin}
    (stands : term ∈ sectionTerms part) (notSelf : term.isSelf = false)
    (leads : texts.target kind term = .ok (found, origin))
    (later : Reaches texts kind frame found) : Reaches texts kind frame part

/-- No other section is come to by the same include. -/
def Unrivalled (texts : Library) (kind : SectionKind) (term : IncludeTerm) (part : Section) : Prop :=
  ∀ other found origin, texts.target kind other = .ok (found, origin) →
    frameTo kind other found = frameTo kind term part → found = part

variable {texts : Library} {part : Section} {sections : List Section}

/-- In a file whose sections have different names, an include comes to one section only. -/
theorem unrivalled_of_nodup {kind : SectionKind} {term : IncludeTerm} {place : Origin}
    (held : texts.sectionsFor kind (term.file.getD "") = .ok sections)
    (distinct : (sections.map (·.name)).Nodup) (leads : texts.target kind term = .ok (part, place)) :
    texts.Unrivalled kind term part := by
  intro other found origin otherLeads same
  obtain ⟨sameFile, sameName, -⟩ := Frame.mk.injEq .. ▸ same
  -- Both terms ask the same file, so they lead to sections of one list.
  obtain ⟨known, position, isHeld, -, located⟩ := target_position leads
  obtain ⟨otherKnown, otherPosition, otherHeld, -, otherLocated⟩ := target_position otherLeads
  rw [sameFile] at otherHeld
  cases held.symm.trans isHeld
  cases held.symm.trans otherHeld
  exact eq_of_key_eq distinct (List.mem_of_getElem? otherLocated) (List.mem_of_getElem? located)
    sameName

/-- A term with the name of a section leads to it, where no other section of the file has its
name. -/
theorem target_named {file : String} (held : texts.sectionsFor part.kind file = .ok sections)
    (distinct : (sections.map (·.name)).Nodup) (member : part ∈ sections) (merge : MergeMode)
    (group : Option UInt32) :
    ∃ position, sections[position]? = some part ∧
      texts.target part.kind ⟨merge, some file, some part.name, group⟩ =
        .ok (part, .included file position) := by
  -- The first section of the name is found, and it is the one.
  obtain ⟨position, located⟩ : ∃ position, sections.findIdx? (·.name == part.name) = some position :=
    Option.isSome_iff_exists.mp (List.findIdx?_isSome.trans (List.any_eq_true.mpr
      ⟨part, member, by simp⟩))
  obtain ⟨bound, sameName, -⟩ := List.findIdx?_eq_some_iff_getElem.mp located
  have isPart : sections[position] = part :=
    eq_of_key_eq distinct (List.getElem_mem bound) member (eq_of_beq sameName)
  have found : sections[position]? = some part := by
    rw [List.getElem?_eq_getElem bound, isPart]
  refine ⟨position, found, ?_⟩
  have chosen : choose sections part.kind file (some part.name) = pure (.ok position) := by
    simp only [choose, located]
  have picked : pick sections part.kind file (some part.name) =
      pure (.ok (part, .included file position)) := by
    rw [pick, chosen, pure_bind]
    simp only [found, beq_self_eq_true, if_true]
  simp only [target, Option.getD_some, held, bind, Except.bind, picked]
  rfl

theorem explored_apart (texts : Library) (kind : SectionKind) (frame : Frame) :
    texts.Explored kind ((texts.targetFrames kind texts.allSections).filter (· ≠ frame))
      fun part => part ∈ texts.allSections ∧ ¬texts.Reaches kind frame part := by
  intro part ⟨visited, away⟩ term stands notSelf found origin leads
  refine ⟨⟨target_mem leads, fun later => away (.further stands notSelf leads later)⟩, ?_⟩
  -- The include that is avoided is not among those that stand in the section.
  rw [List.mem_filter]
  refine ⟨frameTo_mem visited stands leads, ?_⟩
  simpa using fun comes => away (.here stands notSelf leads comes)

end Library

namespace Assembly

variable {γ : Type} [SectionContents γ] {assembly : Assembly} {term : IncludeTerm}
  {through part : Section} {place : Origin}

variable {contents : γ → γ → Prop} (unparsed : assembly.library.parsed = [])
  (unused : assembly.library.stack = [])
include unparsed unused

theorem reading_inside {frame : Frame} (known : part ∈ assembly.library.allSections)
    (away : ¬assembly.library.Reaches (SectionContents.kind γ) frame part)
    (uniform : Uniform γ assembly.keymap.keycodes (AtLevels Eq) (Origin.relocate place) contents)
    {inner : Workspace} (inside : assembly.workspace.Inside assembly.library frame inner)
    {limit : Nat} (enough : assembly.library.reach < limit) :
    let deeper := (readSection assembly.keymap.keycodes limit .override part place Draft.empty :
      Reading (Draft γ)) inner
    Draft.Matched (Origin.relocate place) contents (reading γ assembly .override part).1 deeper.1 ∧
      deeper.2.modifiers = (reading γ assembly .override part).2.modifiers := by
  -- All includes but the one that is being followed are left to both readings.
  have few := assembly.library.targetFrames_length (SectionContents.kind γ)
  have fewer := List.length_filter_le (· ≠ frame)
    (assembly.library.targetFrames (SectionContents.kind γ) assembly.library.allSections)
  have read := readSection_sharing (Lenient.atLevels Eq) (Admits.anything γ) uniform unparsed
    (explored_apart assembly.library (SectionContents.kind γ) frame) [frame] (by simp)
    (termCount part + assembly.library.reach + 1) limit [] (List.nil_subset _)
    (by rw [List.length_nil]; omega) (by rw [List.length_nil]; omega) .override ⟨known, away⟩ .main
    (Draft.matched_empty uniform.inclusive)
  obtain ⟨sameDraft, sameWorkspace⟩ := read assembly.workspace inner
    ⟨inside.modifiers.symm, True.intro, inside.level.symm, Extends.refl _, inside.texts, unused,
      inside.stack, List.nodup_nil⟩
  exact ⟨sameDraft, sameWorkspace.modifiers.symm⟩

variable (plain : NeedsFiles γ)
  (relay : Relay assembly.library (SectionContents.kind γ) term through part place)
  (unique : assembly.library.Unrivalled (SectionContents.kind γ) term part)
include plain relay unique

theorem reading_of_reaches
    (cyclic : assembly.library.Reaches (SectionContents.kind γ)
      (frameTo (SectionContents.kind γ) term part) part) (mode : MergeMode) :
    (reading γ assembly mode part).1.isClean = false ∧
      (reading γ assembly mode through).1.isClean = false := by
  -- Every section that comes to the include leads to one that does, and the end is the start.
  have leads : ∀ known, known = through ∨ assembly.library.Reaches (SectionContents.kind γ)
        (frameTo (SectionContents.kind γ) term part) known →
      ∃ next ∈ sectionTerms known, next.isSelf = false ∧ ∃ found origin,
        assembly.library.target (SectionContents.kind γ) next = .ok (found, origin) ∧
          (found = through ∨ assembly.library.Reaches (SectionContents.kind γ)
            (frameTo (SectionContents.kind γ) term part) found) := by
    rintro known (rfl | reaches)
    · -- The relaying section comes to the other one at once.
      obtain ⟨text, only⟩ := relay.only
      have stands : term ∈ sectionTerms known :=
        mem_sectionTerms.mpr ⟨_, only ▸ List.mem_singleton_self _, List.mem_singleton_self _⟩
      exact ⟨term, stands, relay.notSelf, part, place, relay.leads, .inr cyclic⟩
    · cases reaches with
      | @here _ found next origin stands notSelf isTarget comes =>
        -- The include leads to the section that the way began with, so it may begin again.
        have isPart : found = part := unique next found origin isTarget comes
        exact ⟨next, stands, notSelf, found, origin, isTarget, .inr (isPart ▸ cyclic)⟩
      | @further _ found next origin stands notSelf isTarget later =>
        exact ⟨next, stands, notSelf, found, origin, isTarget, .inr later⟩
  exact ⟨reading_endless plain unparsed unused leads mode (.inr cyclic),
    reading_endless plain unparsed unused leads mode (.inl rfl)⟩

/-- What reading a section and reading one that relays it come to: both have errors, or the second
one holds what was taken of the first. -/
structure Relayed (contents : γ → γ → Prop) (taken : γ → γ) (own whole : Draft γ × Workspace) :
    Prop where
  clean : whole.1.isClean = own.1.isClean
  modifiers : own.1.isClean = true → whole.2.modifiers = own.2.modifiers
  contents : own.1.isClean = true → ∃ moved, contents own.1.contents moved ∧
    whole.1.contents = taken moved

/-- A section that relays another one is read as this other one is. -/
theorem reading_relay
    (starts : forTerm term SectionContents.empty = (SectionContents.empty : γ))
    (uniform : Uniform γ assembly.keymap.keycodes (AtLevels Eq) (Origin.relocate place) contents)
    {taken : γ → γ}
    (takes : ∀ left right, contents left right → ∀ modifiers header,
      Gives (absorb ⟨modifiers, assembly.keymap.keycodes⟩ term.merge header right
        SectionContents.empty) fun made => made = (taken right, 0)) :
    Relayed contents taken (reading γ assembly .override part)
      (reading γ assembly .override through) := by
  by_cases cyclic : assembly.library.Reaches (SectionContents.kind γ)
      (frameTo (SectionContents.kind γ) term part) part
  · -- Both readings would follow the include within itself.
    obtain ⟨ownDirty, wholeDirty⟩ :=
      reading_of_reaches unparsed unused plain relay unique cyclic .override
    refine ⟨by rw [ownDirty, wholeDirty], fun clean => ?_, fun clean => ?_⟩
    · simp [ownDirty] at clean
    · simp [ownDirty] at clean
  · -- The section is read once more inside the include, with one include less to spend.
    have extension : assembly.library.Extends assembly.workspace.library := Extends.refl _
    obtain ⟨inner, inside, sameModifiers, spoils, fills⟩ := readSection_relay plain unparsed
      extension unused relay starts assembly.keymap.keycodes
      (termCount through + assembly.library.reach) .override
    have oneTerm : termCount through = 1 := by
      obtain ⟨text, only⟩ := relay.only
      rw [← sectionTerms_length, sectionTerms, only]
      rfl
    have enough : assembly.library.reach < termCount through + assembly.library.reach := by omega
    obtain ⟨sameDraft, deeperModifiers⟩ := reading_inside unparsed unused (target_mem relay.leads)
      cyclic uniform inside enough
    generalize (readSection assembly.keymap.keycodes (termCount through + assembly.library.reach)
      .override part place Draft.empty : Reading (Draft γ)) inner = deeper
      at sameDraft deeperModifiers sameModifiers spoils fills
    have sameClean := sameDraft.isClean_eq
    have sameWhole := fun clean => fills (taken deeper.1.contents) clean
      (takes _ _ sameDraft.contents)
    refine ⟨?_, fun _ => sameModifiers.trans deeperModifiers, fun clean => ?_⟩
    · cases clean : deeper.1.isClean with
      | false => rw [← sameClean, clean]; exact spoils clean
      | true => rw [← sameClean, clean]; exact congrArg Draft.isClean (sameWhole clean)
    · exact ⟨deeper.1.contents, sameDraft.contents,
        congrArg Draft.contents (sameWhole (sameClean.trans clean))⟩

end Assembly

end Xkb
