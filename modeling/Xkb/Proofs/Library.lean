import Xkb.Proofs.Computation
import Xkb.Proofs.Source.Progress

/-! The sections that a library holds, and the includes that lead to them. -/

namespace Xkb

theorem Text.afterLead_append (lead rest : String) :
    Text.afterLead lead (lead ++ rest) = some rest := by
  have split (front back : List Char) : front.isPrefixOf? (front ++ back) = some back := by
    induction front with
    | nil => rfl
    | cons c front ih => exact (if_pos (beq_self_eq_true c)).trans ih
  simp [Text.afterLead]

namespace Library

/-- The sections of a text; a text that cannot be read has none. -/
def sectionsOf (text : String) : List Section :=
  match Source.parse text with
  | .ok sections => sections
  | .error _ => []

/-- The number of sections in the texts that are at hand. -/
def sectionCount (library : Library) : Nat :=
  total (fun source => (sectionsOf source.2).length) library.sources

/-- The files that a path stands for when sections of a kind are asked for. -/
def filesAt (kind : SectionKind) (path : String) : List String :=
  path :: (Text.afterLead (kind.directory ++ "/") path).toList

/-- The includes of a kind that the sections of a text can be reached by. -/
def framesOf (kind : SectionKind) (source : String × String) : List Frame :=
  (filesAt kind source.1).flatMap fun file =>
    (sectionsOf source.2).map fun part => ⟨file, part.name, kind⟩

/-- The includes of a kind that can be followed. -/
def frames (library : Library) (kind : SectionKind) : List Frame :=
  library.sources.flatMap (framesOf kind)

/-- A text is reached under two names at most, so its sections make at most twice as many
includes. -/
theorem framesOf_length (kind : SectionKind) (source : String × String) :
    (framesOf kind source).length ≤ 2 * (sectionsOf source.2).length := by
  have names : (filesAt kind source.1).length ≤ 2 := by
    cases lead : Text.afterLead (kind.directory ++ "/") source.1 <;> simp [filesAt]
  have total : (framesOf kind source).length
      = (filesAt kind source.1).length * (sectionsOf source.2).length := by
    simp [framesOf]
  rw [total]
  exact Nat.mul_le_mul_right _ names

/-- There are at most twice as many includes as sections. -/
theorem frames_length (library : Library) (kind : SectionKind) :
    (library.frames kind).length ≤ 2 * library.sectionCount := by
  simp only [frames, sectionCount]
  induction library.sources with
  | nil => simp
  | cons source rest ih =>
    have here := framesOf_length kind source
    simp only [List.flatMap_cons, List.length_append, total_cons]
    omega

variable {kind : SectionKind} {file : String} {library : Library} {part : Section}

theorem mem_filesAt {path : String} (reached : path = scopedPath kind file ∨ path = file) :
    file ∈ filesAt kind path := by
  rcases reached with rfl | rfl
  · simp [filesAt, scopedPath, Text.afterLead_append]
  · simp [filesAt]

theorem text_source (noRoots : library.roots = []) {text : String}
    (found : library.text kind file = .ok text) :
    ∃ source ∈ library.sources, source.2 = text ∧ file ∈ filesAt kind source.1 := by
  have lookup {path : String} (found : library.source path = some text) :
      ∃ source ∈ library.sources, source.2 = text ∧ source.1 = path := by
    simp only [source, Option.map_eq_some_iff] at found
    obtain ⟨entry, located, same⟩ := found
    exact ⟨entry, List.mem_of_find?_eq_some located, same, by simpa using List.find?_some located⟩
  simp only [Library.text] at found
  split at found
  · -- The path in the directory of the kind counts first.
    rename_i known inDirectory
    simp only [Except.ok.injEq] at found
    obtain ⟨entry, member, same, path⟩ := lookup (found ▸ inDirectory)
    exact ⟨entry, member, same, mem_filesAt (.inl path)⟩
  · split at found
    · rename_i known plain
      simp only [Except.ok.injEq] at found
      obtain ⟨entry, member, same, path⟩ := lookup (found ▸ plain)
      exact ⟨entry, member, same, mem_filesAt (.inr path)⟩
    · simp [candidates, noRoots] at found

/-- The limit on how deep includes are followed is beyond the number of includes. -/
theorem frames_le_reach (library : Library) (kind : SectionKind) :
    (library.frames kind).length ≤ library.reach := by
  -- A text has two characters for each of its sections, and each section two names.
  have texts : 2 * library.sectionCount ≤ total (fun source => source.2.length) library.sources := by
    simp only [sectionCount]
    induction library.sources with
    | nil => simp [total]
    | cons source rest ih =>
      have here : 2 * (sectionsOf source.2).length ≤ source.2.length := by
        cases parsed : Source.parse source.2 with
        | error fault => simp [sectionsOf, parsed]
        | ok sections =>
          simpa [sectionsOf, parsed, String.length_toList] using Source.parse_length parsed
      simp only [total_cons]
      omega
  have bound := frames_length library kind
  simp only [reach]
  omega

/-- The sections that a file of a library stands for: those it was parsed to, else those of its
text. -/
inductive Holds (library : Library) (kind : SectionKind) (file : String) :
    List Section → Prop where
  | parsed {known : ParsedFile} (member : known ∈ library.parsed) (sameFile : known.file = file)
      (sameKind : known.kind = kind) : Holds library kind file known.sections
  | text {text : String} {sections : List Section} (found : library.text kind file = .ok text)
      (parsed : Source.parse text = .ok sections) : Holds library kind file sections

/-- A library in which some more files were parsed. -/
structure Extends (base library : Library) : Prop where
  roots : library.roots = base.roots
  files : library.files = base.files
  sources : library.sources = base.sources
  parsed : ∀ known ∈ library.parsed, base.Holds known.kind known.file known.sections

namespace Extends

variable {base library : Library}

theorem refl (library : Library) : Extends library library :=
  ⟨rfl, rfl, rfl, fun _ member => .parsed member rfl rfl⟩

theorem text_eq (extension : Extends base library) (kind : SectionKind) (file : String) :
    library.text kind file = base.text kind file := by
  simp [Library.text, source, candidates, extension.roots, extension.files, extension.sources]

variable {after : Library}

/-- Loading a file gives the sections that the library holds for it. -/
theorem load (extension : Extends base library) {kind : SectionKind} {file : String}
    {sections : List Section} (loaded : library.load kind file = .ok (sections, after)) :
    base.Holds kind file sections ∧ Extends base after ∧ after.stack = library.stack := by
  simp only [Library.load] at loaded
  split at loaded
  · -- What was parsed before is taken as it is.
    rename_i known located
    simp only [Except.ok.injEq, Prod.mk.injEq] at loaded
    obtain ⟨rfl, rfl⟩ := loaded
    have named := List.find?_some located
    simp only [Bool.and_eq_true, beq_iff_eq] at named
    have held := extension.parsed known (List.mem_of_find?_eq_some located)
    rw [named.1, named.2] at held
    exact ⟨held, extension, rfl⟩
  · cases found : library.text kind file with
    | error error => simp [found, bind, Except.bind] at loaded
    | ok text =>
      cases parsed : Source.parse text with
      | error fault =>
        simp only [found, parsed, bind, Except.bind] at loaded
        cases loaded
      | ok parts =>
        simp only [found, parsed, bind, Except.bind] at loaded
        cases loaded
        have held : base.Holds kind file sections :=
          .text (extension.text_eq kind file ▸ found) parsed
        refine ⟨held, ⟨extension.roots, extension.files, extension.sources, ?_⟩, rfl⟩
        intro known member
        rcases List.mem_append.mp member with member | member
        · exact extension.parsed known member
        · obtain rfl := List.mem_singleton.mp member
          exact held

/-- An include is entered only where it is not being followed. -/
theorem enter (extension : Extends base library) {frame : Frame}
    (entered : library.enter frame = .ok after) :
    frame ∉ library.stack ∧ Extends base after ∧ after.stack = frame :: library.stack := by
  simp only [Library.enter] at entered
  split at entered
  · simp at entered
  · rename_i fresh
    simp only [Except.ok.injEq] at entered
    rw [← entered]
    refine ⟨by simpa using fresh, ?_, rfl⟩
    exact ⟨extension.roots, extension.files, extension.sources, extension.parsed⟩

/-- Leaving an include changes nothing but the stack. -/
theorem leave (extension : Extends base library) : Extends base library.leave :=
  ⟨extension.roots, extension.files, extension.sources, extension.parsed⟩

end Extends

/-- Without directories and before anything is parsed, a section of a file is reached by an include
that can be followed. -/
theorem mem_frames (noRoots : library.roots = []) (unparsed : library.parsed = [])
    {sections : List Section} (held : library.Holds kind file sections) (member : part ∈ sections) :
    ⟨file, part.name, kind⟩ ∈ library.frames kind := by
  cases held with
  | parsed known => simp [unparsed] at known
  | text found parsed =>
    obtain ⟨source, known, rfl, named⟩ := text_source noRoots found
    have sectionsKnown : sectionsOf source.2 = sections := by simp [sectionsOf, parsed]
    refine List.mem_flatMap.mpr ⟨source, known, ?_⟩
    refine List.mem_flatMap.mpr ⟨file, named, ?_⟩
    rw [sectionsKnown]
    exact List.mem_map.mpr ⟨part, member, rfl⟩

/-- A section that is picked is from the file, at a position of its own. -/
theorem pick_position (sections : List Section) (kind : SectionKind) (file : String)
    (map : Option String) :
    Gives (pick sections kind file map) fun picked => ∀ part origin, picked = .ok (part, origin) →
      ∃ position, origin = .included file position ∧ sections[position]? = some part := by
  refine .after fun chosen => ?_
  rcases chosen with error | position
  · exact .pure fun part origin picked => nomatch picked
  · dsimp only
    cases located : sections[position]? with
    | none => exact .pure fun part origin picked => nomatch picked
    | some known =>
      refine .ite (fun _ => .pure ?_)
        (fun _ => .pure fun part origin picked => nomatch picked)
      intro part origin picked
      simp only [Except.ok.injEq, Prod.mk.injEq] at picked
      exact ⟨position, picked.2.symm, picked.1 ▸ located⟩

theorem pick_member (sections : List Section) (kind : SectionKind) (file : String)
    (map : Option String) :
    Gives (pick sections kind file map) fun picked =>
      ∀ part origin, picked = .ok (part, origin) → part ∈ sections := by
  refine .mono (pick_position sections kind file map) fun picked known part origin same => ?_
  obtain ⟨position, -, located⟩ := known part origin same
  exact List.mem_of_getElem? located

/-- A section that a library has for an include: picked out of those that it holds for the file. -/
def Offers (library : Library) (kind : SectionKind) (file : String) (map : Option String)
    (part : Section) : Prop :=
  ∃ sections origin diagnostics, library.Holds kind file sections ∧
    (pick sections kind file map diagnostics).1 = .ok (part, origin)

/-- A section that is offered is one of those that the library holds for the file. -/
theorem Offers.held {map : Option String} (offered : library.Offers kind file map part) :
    ∃ sections, library.Holds kind file sections ∧ part ∈ sections := by
  obtain ⟨sections, origin, diagnostics, held, picked⟩ := offered
  exact ⟨sections, held, pick_member sections kind file map diagnostics part origin picked⟩

/-- A section that is found is one that the library offers. -/
theorem Extends.find {base : Library} (extension : Extends base library) (kind : SectionKind)
    (file : String) (map : Option String) :
    Gives (library.find kind file map) fun found =>
      Extends base found.2 ∧ found.2.stack = library.stack ∧
        ∀ part origin, found.1 = .ok (part, origin) → base.Offers kind file map part := by
  simp only [Library.find]
  cases loaded : library.load kind file with
  | error error => exact .pure ⟨extension, rfl, fun _ _ picked => nomatch picked⟩
  | ok pair =>
    obtain ⟨sections, after⟩ := pair
    obtain ⟨held, extended, sameStack⟩ := extension.load loaded
    intro diagnostics
    exact ⟨extended, sameStack, fun part origin picked =>
      ⟨sections, origin, diagnostics, held, picked⟩⟩

/-- The statements that a section leads to: its own and those of the sections that a library offers
for the terms of its includes, from include to include. -/
inductive Contributes (library : Library) (kind : SectionKind) : Section → Statement → Prop where
  | own {part : Section} {statement : Statement} (member : statement ∈ part.statements) :
      Contributes library kind part statement
  | through {part found : Section} {included : IncludeStatement} {term : IncludeTerm}
      {statement : Statement} (stands : .inclusion included ∈ part.statements)
      (member : term ∈ included.terms) (notSelf : term.isSelf = false)
      (offered : library.Offers kind (term.file.getD "") term.map found)
      (further : Contributes library kind found statement) :
      Contributes library kind part statement

/-- What holds of the statements of a section and of all sections of a library holds of those that
the section leads to. -/
theorem Contributes.elim {statement : Statement} {supplied : Statement → Prop}
    (contributed : library.Contributes kind part statement)
    (own : ∀ statement ∈ part.statements, supplied statement)
    (held : ∀ file sections included, library.Holds kind file sections → included ∈ sections →
      ∀ statement ∈ included.statements, supplied statement) : supplied statement := by
  induction contributed with
  | own member => exact own _ member
  | through stands member notSelf offered further ih =>
    obtain ⟨sections, holds, chosen⟩ := offered.held
    exact ih (held _ sections _ holds chosen)

end Library

end Xkb
