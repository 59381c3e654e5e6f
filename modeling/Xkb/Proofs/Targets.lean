import Xkb.Proofs.Section.Agreement
import Xkb.Proofs.Source.Progress

/-! What the terms of include statements lead to, and how many different includes there can be. -/

namespace Xkb

namespace Library

/-- The include terms of a section. -/
def sectionTerms (part : Section) : List IncludeTerm :=
  part.statements.flatMap fun statement =>
    match statement with
    | .inclusion included => included.terms
    | _ => []

/-- The terms are as many as were counted. -/
theorem sectionTerms_length (part : Section) : (sectionTerms part).length = termCount part := by
  rw [termCount_eq, sectionTerms]
  induction part.statements with
  | nil => rfl
  | cons statement rest ih =>
    rw [List.flatMap_cons, List.length_append, ih]
    -- Only an include statement has terms.
    cases statement <;> rfl

variable {library : Library} {kind : SectionKind} {term : IncludeTerm} {sections : List Section}
  {part : Section} {file : String} {origin : Origin}

/-- The terms of a section are those of its include statements. -/
theorem mem_sectionTerms :
    term ∈ sectionTerms part ↔
      ∃ included, .inclusion included ∈ part.statements ∧ term ∈ included.terms := by
  simp only [sectionTerms, List.mem_flatMap]
  constructor
  · intro ⟨statement, stands, member⟩
    cases statement with
    | inclusion included => exact ⟨included, stands, member⟩
    | _ => cases member
  · intro ⟨included, stands, member⟩
    exact ⟨.inclusion included, stands, member⟩

/-- The sections of a file for a kind, as its text has them. -/
def sectionsFor (library : Library) (kind : SectionKind) (file : String) :
    Except IncludeError (List Section) := do
  let text ← library.text kind file
  (Source.parse text).mapError (IncludeError.unparsable file)

/-- The section that a term leads to, and where it is from. -/
def target (library : Library) (kind : SectionKind) (term : IncludeTerm) :
    Except IncludeError (Section × Origin) := do
  let file := term.file.getD ""
  let sections ← library.sectionsFor kind file
  (pick sections kind file term.map (.atLevel 0)).1

/-- The include by which a term comes to a section. -/
def frameTo (kind : SectionKind) (term : IncludeTerm) (part : Section) : Frame :=
  ⟨term.file.getD "", part.name, kind⟩

theorem pick_eq (sections : List Section) (kind : SectionKind) (file : String)
    (map : Option String) :
    Gives (pick sections kind file map) fun picked =>
      picked = (pick sections kind file map (.atLevel 0)).1 := by
  intro diagnostics
  -- Two picks whose reports have nothing in common still pick the same.
  have anyLevel := (Lenient.atLevels fun _ _ => True).pick sections kind file map
  exact (anyLevel diagnostics (.atLevel 0) True.intro).1

theorem mapError_ok {ε δ α : Type} (change : ε → δ) (value : α) :
    (Except.ok value).mapError change = .ok value :=
  rfl

theorem mapError_error {ε δ α : Type} (change : ε → δ) (error : ε) :
    (Except.error error : Except ε α).mapError change = .error (change error) :=
  rfl

/-- The sections of a file are those that its text is parsed to. -/
theorem sectionsFor_eq_ok :
    library.sectionsFor kind file = .ok sections ↔
      ∃ text, library.text kind file = .ok text ∧ Source.parse text = .ok sections := by
  simp only [sectionsFor]
  cases text : library.text kind file with
  | error error => simp [bind, Except.bind]
  | ok content =>
    cases parsed : Source.parse content with
    | error fault => simp [parsed, bind, Except.bind, mapError_error]
    | ok known => simp [parsed, bind, Except.bind, mapError_ok]

theorem sectionsFor_of_holds (unparsed : library.parsed = [])
    (held : library.Holds kind file sections) : library.sectionsFor kind file = .ok sections := by
  cases held with
  | parsed known => simp [unparsed] at known
  | text found parsed => exact sectionsFor_eq_ok.mpr ⟨_, found, parsed⟩

namespace Extends

variable {texts library : Library}

/-- Loading a file gives what its text has, whatever was parsed before. -/
theorem load_eq (extension : Extends texts library) (unparsed : texts.parsed = [])
    (kind : SectionKind) (file : String) :
    ∃ after, library.load kind file = (texts.sectionsFor kind file).map (·, after) ∧
      Extends texts after ∧ after.stack = library.stack := by
  cases loaded : library.load kind file with
  | ok found =>
    obtain ⟨sections, after⟩ := found
    obtain ⟨held, extended, sameStack⟩ := extension.load loaded
    refine ⟨after, ?_, extended, sameStack⟩
    -- Parsed or not, what the library holds for the file is what the text has.
    rw [sectionsFor_of_holds unparsed held]
    rfl
  | error error =>
    refine ⟨library, ?_, extension, rfl⟩
    -- A file that was parsed before would have been loaded, so its text was looked at.
    simp only [Library.load] at loaded
    split at loaded
    · cases loaded
    · rw [extension.text_eq] at loaded
      simp only [sectionsFor]
      cases text : texts.text kind file with
      | error fault =>
        simp only [text] at loaded
        cases loaded
        rfl
      | ok content =>
        simp only [text, bind, Except.bind] at loaded ⊢
        cases parsed : Source.parse content with
        | error fault =>
          simp only [parsed] at loaded ⊢
          cases loaded
          rfl
        | ok sections =>
          simp only [parsed] at loaded
          cases loaded

/-- Two libraries with the same texts find the section that a term leads to, and report alike. -/
theorem find_alike {reports : Diagnostics → Diagnostics → Prop} (lenient : Lenient reports)
    {other : Library} (extension : Extends texts library) (otherExtension : Extends texts other)
    (unparsed : texts.parsed = []) (kind : SectionKind) (term : IncludeTerm) :
    Alike reports (library.find kind (term.file.getD "") term.map)
      (other.find kind (term.file.getD "") term.map)
      fun found otherFound => found.1 = otherFound.1 ∧ found.1 = texts.target kind term ∧
        (Extends texts found.2 ∧ found.2.stack = library.stack) ∧
        Extends texts otherFound.2 ∧ otherFound.2.stack = other.stack := by
  obtain ⟨after, loaded, extended, sameStack⟩ :=
    extension.load_eq unparsed kind (term.file.getD "")
  obtain ⟨otherAfter, otherLoaded, otherExtended, otherSameStack⟩ :=
    otherExtension.load_eq unparsed kind (term.file.getD "")
  simp only [Library.find, target, loaded, otherLoaded]
  -- Both load the same, so both fail on the file or pick from the same sections.
  cases texts.sectionsFor kind (term.file.getD "") with
  | error error => exact .pure ⟨rfl, rfl, ⟨extension, rfl⟩, otherExtension, rfl⟩
  | ok sections =>
    have picked := (lenient.pick sections kind (term.file.getD "") term.map).gives
      (pick_eq sections kind (term.file.getD "") term.map)
    refine .bind picked fun found otherFound known => ?_
    exact .pure ⟨known.1, known.2, ⟨extended, sameStack⟩, otherExtended, otherSameStack⟩

/-- A library finds the section that a term leads to. -/
theorem find_eq (extension : Extends texts library) (unparsed : texts.parsed = [])
    (kind : SectionKind) (term : IncludeTerm) :
    Gives (library.find kind (term.file.getD "") term.map) fun found =>
      found.1 = texts.target kind term := by
  intro diagnostics
  have found := extension.find_alike Lenient.refl extension unparsed kind term
  exact (found diagnostics diagnostics rfl).1.2.1

end Extends

/-- The sections of a file entry. -/
def entrySections : FileEntry → List Section
  | .text content => sectionsOf content
  | _ => []

/-- The sections of all texts: of those at hand and of those in files. -/
def allSections (library : Library) : List Section :=
  (library.sources.flatMap fun source => sectionsOf source.2) ++
    library.files.entries.flatMap fun entry => entrySections entry.2

theorem source_sections {path text : String} (found : library.source path = some text) :
    sectionsOf text ⊆ library.allSections := by
  simp only [source, Option.map_eq_some_iff] at found
  obtain ⟨entry, located, rfl⟩ := found
  intro part member
  refine List.mem_append_left _ (List.mem_flatMap.mpr ⟨entry, ?_, member⟩)
  exact List.mem_of_find?_eq_some located

theorem read_sections {path text : String} (read : library.files.read path = .ok text) :
    sectionsOf text ⊆ library.allSections := by
  -- A directory may be found without an entry of its own, a text may not.
  have listed {place : Place} (found : library.files.entryAt place = some (.text text)) :
      sectionsOf text ⊆ library.allSections := by
    simp only [FileTree.entryAt] at found
    split at found
    · rename_i known entry located
      cases found
      intro part member
      have entered := List.mem_of_find?_eq_some located
      exact List.mem_append_right _ (List.mem_flatMap.mpr ⟨(known, .text text), entered, member⟩)
    · split at found <;> cases found
  simp only [FileTree.read, FileTree.find] at read
  cases located : library.files.locate path with
  | error fault => simp [located, bind, Except.bind] at read
  | ok place =>
    simp only [located, bind, Except.bind] at read
    cases found : library.files.entryAt place with
    | none =>
      rw [found] at read
      cases read
    | some entry =>
      rw [found] at read
      cases entry with
      | directory => cases read
      | binary => cases read
      | text known =>
        cases read
        exact listed found

theorem text_sections {text : String} (found : library.text kind file = .ok text) :
    sectionsOf text ⊆ library.allSections := by
  simp only [Library.text] at found
  -- A text at hand counts first, under the path of the kind or under its own.
  split at found
  · rename_i known
    simp only [Except.ok.injEq] at found
    exact source_sections (found ▸ known)
  · split at found
    · rename_i known
      simp only [Except.ok.injEq] at found
      exact source_sections (found ▸ known)
    · split at found
      · rename_i path _
        cases read : library.files.read path with
        | error fault => simp [read, mapError_error] at found
        | ok content =>
          simp only [read, mapError_ok, Except.ok.injEq] at found
          exact found ▸ read_sections read
      · cases found

/-- In a library without parsed files, what a file holds is among all sections. -/
theorem Holds.subset_allSections (unparsed : library.parsed = [])
    (held : library.Holds kind file sections) : sections ⊆ library.allSections := by
  cases held with
  | parsed known => simp [unparsed] at known
  | text found parsed =>
    have sections := text_sections found
    rwa [sectionsOf, parsed] at sections

/-- A section that a term leads to is from the file of the term. -/
theorem target_position (leads : library.target kind term = .ok (part, origin)) :
    ∃ sections position, library.sectionsFor kind (term.file.getD "") = .ok sections ∧
      origin = .included (term.file.getD "") position ∧ sections[position]? = some part := by
  simp only [target] at leads
  -- A term that leads somewhere has a file that can be read.
  cases found : library.sectionsFor kind (term.file.getD "") with
  | error error => simp [found, bind, Except.bind] at leads
  | ok sections =>
    simp only [found] at leads
    obtain ⟨position, place, located⟩ := pick_position sections kind (term.file.getD "") term.map
      (.atLevel 0) part origin leads
    exact ⟨sections, position, rfl, place, located⟩

/-- A section that a term leads to is one of all sections. -/
theorem target_mem (leads : library.target kind term = .ok (part, origin)) :
    part ∈ library.allSections := by
  obtain ⟨sections, position, found, -, located⟩ := target_position leads
  obtain ⟨text, known, parsed⟩ := sectionsFor_eq_ok.mp found
  -- The file is a text of the library, and the section was parsed from it.
  refine text_sections known ?_
  simpa [sectionsOf, parsed] using List.mem_of_getElem? located

theorem length_flatMap_le {α β : Type} {size : α → Nat} {make : α → List β} {list : List α}
    (each : ∀ item ∈ list, (make item).length ≤ size item) :
    (list.flatMap make).length ≤ total size list := by
  induction list with
  | nil => exact Nat.le_refl 0
  | cons item rest ih =>
    have here := each item (by simp)
    have others := ih fun item member => each item (by simp [member])
    rw [List.flatMap_cons, List.length_append, total_cons]
    omega

theorem sectionsOf_terms (text : String) :
    ((sectionsOf text).flatMap sectionTerms).length ≤ text.length := by
  simp only [sectionsOf]
  split
  · rename_i sections parsed
    have counted : (sections.flatMap sectionTerms).length ≤ total termCount sections :=
      length_flatMap_le fun part _ => Nat.le_of_eq (sectionTerms_length part)
    -- A text that cannot be parsed has no sections, and else each term takes a character.
    have few := Source.parse_terms parsed
    rw [String.length_toList] at few
    omega
  · exact Nat.zero_le _

theorem allSections_terms (library : Library) :
    (library.allSections.flatMap sectionTerms).length ≤ library.reach := by
  -- The texts at hand and those in files are counted apart, as the depth counts them.
  have atHand : (library.sources.flatMap fun source =>
      (sectionsOf source.2).flatMap sectionTerms).length
        ≤ total (fun source => source.2.length) library.sources :=
    length_flatMap_le fun source _ => sectionsOf_terms source.2
  have inFiles : (library.files.entries.flatMap fun entry =>
      (entrySections entry.2).flatMap sectionTerms).length
        ≤ total (fun entry => entrySize entry.2) library.files.entries := by
    refine length_flatMap_le fun entry _ => ?_
    cases entry.2 with
    | text content => exact sectionsOf_terms content
    | directory => exact Nat.zero_le _
    | binary => exact Nat.zero_le _
  rw [allSections, List.flatMap_append, List.length_append, List.flatMap_assoc, List.flatMap_assoc,
    reach]
  omega

/-- The includes that the terms of some sections lead to. -/
def targetFrames (library : Library) (kind : SectionKind) (parts : List Section) : List Frame :=
  (parts.flatMap sectionTerms).filterMap fun term =>
    match library.target kind term with
    | .ok (part, _) => some (frameTo kind term part)
    | .error _ => none

/-- The include by which a term of a section comes to another one. -/
theorem frameTo_mem {parts : List Section} {found : Section} (member : part ∈ parts)
    (stands : term ∈ sectionTerms part) (leads : library.target kind term = .ok (found, origin)) :
    frameTo kind term found ∈ library.targetFrames kind parts := by
  refine List.mem_filterMap.mpr ⟨term, List.mem_flatMap.mpr ⟨part, member, stands⟩, ?_⟩
  rw [leads]

theorem targetFrames_length (library : Library) (kind : SectionKind) :
    (library.targetFrames kind library.allSections).length ≤ library.reach :=
  Nat.le_trans (List.length_filterMap_le _ _) library.allSections_terms

/-- A section and those of the library lead to fewer includes than the depth that is allowed. -/
theorem targetFrames_cons_length (library : Library) (kind : SectionKind) (part : Section) :
    (library.targetFrames kind (part :: library.allSections)).length
      ≤ termCount part + library.reach := by
  have few := library.allSections_terms
  have own := sectionTerms_length part
  -- A term leads to one include at most.
  refine Nat.le_trans (List.length_filterMap_le _ _) ?_
  rw [List.flatMap_cons, List.length_append]
  omega

/-- Parsing files does not lower the depth that is allowed. -/
theorem Extends.reach_le {texts : Library} (extension : Extends texts library)
    (unparsed : texts.parsed = []) : texts.reach ≤ library.reach := by
  have none : total (fun known => total termCount known.sections) texts.parsed = 0 := by
    rw [unparsed]
    rfl
  simp only [reach, extension.sources, extension.files]
  omega

end Library

end Xkb
