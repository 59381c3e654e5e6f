import Xkb.Compiler
import Xkb.Proofs.Assembly
import Xkb.Proofs.Section.Reading

/-! Including sections comes to an end, however the texts include each other, and leaves the stack
of includes as it was. -/

namespace Xkb

/-- Effects beside reading: the stacks that were seen, unless the depth that is allowed was not
enough. -/
abbrev Watched := StateT (List (List Frame)) Option

section Watching

variable {γ : Type} [SectionContents γ]

/-- Notes the stack of includes. -/
def noteStack : ReadingT Watched Unit := do
  let stack := (← get).library.stack
  StateT.lift (modify (· ++ [stack]) : Watched Unit)

/-- Reads a section with the stack noted at its beginning and at its end; there is no result where
an include would be followed deeper than the limit. -/
def watchSection (keycodes : KeycodeTable) : Nat → MergeMode → SectionReader Watched γ
  | 0, _, _, _, _ => failure
  | limit + 1, mode, part, origin, draft => do
    noteStack
    let draft ← readStatements keycodes (watchSection keycodes limit .override)
      (SectionContents.mode γ mode) part.name part.statements (draft.begin part.name origin)
    noteStack
    return draft

end Watching

/-- What is seen of a section that is compiled: whether it had no errors, the library afterwards and
the stacks of includes on the way. -/
structure Watch where
  clean : Bool
  library : Library
  seen : List (List Frame)

namespace Assembly

/-- Reads a section as it is read when it is compiled, and tells what is seen of that. -/
def watchAs (γ : Type) [SectionContents γ] (assembly : Assembly) (mode : MergeMode)
    (part : Section) : Option Watch := do
  let limit := Library.termCount part + assembly.library.reach + 1
  let watching : ReadingT Watched (Draft γ) :=
    watchSection assembly.keymap.keycodes limit mode part .main Draft.empty
  let ((draft, workspace), seen) ← watching assembly.workspace []
  return ⟨draft.isClean, workspace.library, seen⟩

/-- What is seen of a section that is compiled, by the kind of the section. -/
def watchPart (assembly : Assembly) (mode : MergeMode) (part : Section) : Option Watch :=
  match part.kind with
  | .keycodes => watchAs KeycodeContents assembly mode part
  | .types => watchAs TypeContents assembly mode part
  | .compatibility => watchAs CompatContents assembly mode part
  | .symbols => watchAs SymbolContents assembly mode part
  | _ => some ⟨false, assembly.library, []⟩

end Assembly

/-- A computation that is watched never exceeds its depth and sees only certain stacks on the way. -/
def Follows {α β : Type} (good : List Frame → Prop) (before : Workspace → Workspace → Prop)
    (plain : Reading α) (watched : ReadingT Watched β)
    (after : α → β → Workspace → Workspace → Prop) : Prop :=
  ∀ first second, before first second → ∃ value ended,
    after (plain first).1 value (plain first).2 ended ∧
      ∀ seen, ∃ more, watched second seen = some ((value, ended), seen ++ more) ∧
        ∀ stack ∈ more, good stack

/-- Computations and the same computations watched. -/
def watching (good : List Frame → Prop) : Lockstep Id Watched where
  relates := Follows good
  step run other ends first second begins :=
    ⟨(other second).1, (other second).2, ends first second begins, fun seen =>
      ⟨[], by rw [List.append_nil]; rfl, by simp⟩⟩
  bind start rest first second begins := by
    obtain ⟨value, middle, reached, firstTrace⟩ := start first second begins
    obtain ⟨result, ended, ends, secondTrace⟩ := rest _ _ _ _ reached
    refine ⟨result, ended, ends, fun seen => ?_⟩
    obtain ⟨firstSeen, firstRun, firstGood⟩ := firstTrace seen
    obtain ⟨secondSeen, secondRun, secondGood⟩ := secondTrace (seen ++ firstSeen)
    refine ⟨firstSeen ++ secondSeen, ?_, List.forall_mem_append.mpr ⟨firstGood, secondGood⟩⟩
    simp only [Bind.bind, StateT.bind, firstRun, Option.bind]
    rw [secondRun, List.append_assoc]
  mono follows stronger weaker first second begins :=
    (follows first second (stronger first second begins)).imp fun _ =>
      Exists.imp fun _ => And.imp_left (weaker _ _ _ _)
  assume follows first second begins := follows first second begins first second begins

section Inclusion

variable {γ : Type} [SectionContents γ] {texts : Library} {stack : List Frame}
  {good : List Frame → Prop}

theorem noteStack_follows (fine : good stack) :
    (watching good).alike (Both texts stack) (pure ()) noteStack fun _ _ => True := by
  intro first second begins
  refine ⟨(), second, ⟨trivial, begins⟩, fun seen => ⟨[stack], ?_, by simpa using fine⟩⟩
  obtain ⟨same, -, here⟩ := begins.libraries
  rw [← here, same]
  rfl

/-- The stacks that may be seen when sections are read from a starting stack. -/
def Bounded (texts : Library) (start stack : List Frame) : Prop :=
  stack.Nodup ∧ stack.length ≤ start.length + 2 * texts.sectionCount

/-- Includes that are followed one within another are different, so there are at most as many as
there are includes at hand. -/
theorem bounded_append {start pushed : List Frame} {kind : SectionKind}
    (distinct : (pushed ++ start).Nodup) (reachable : pushed ⊆ texts.frames kind) :
    Bounded texts start (pushed ++ start) := by
  have few := (List.nodup_append.mp distinct).1.length_le_of_subset reachable
  have twice := texts.frames_length kind
  refine ⟨distinct, ?_⟩
  rw [List.length_append]
  omega

/-- Reading a section leaves the stack as it was, if the depth that is left is more than the
includes that are not yet followed. -/
theorem readSection_follows (noRoots : texts.roots = []) (unparsed : texts.parsed = [])
    (start : List Frame) (keycodes : KeycodeTable) (limit : Nat) (pushed : List Frame)
    (distinct : (pushed ++ start).Nodup)
    (reachable : pushed ⊆ texts.frames (SectionContents.kind γ))
    (enough : (texts.frames (SectionContents.kind γ)).length + 1 ≤ limit + pushed.length)
    (mode : MergeMode) (part : Section) (origin : Origin) (draft : Draft γ) :
    (watching (Bounded texts start)).alike (Both texts (pushed ++ start))
      (readSection keycodes limit mode part origin draft)
      (watchSection keycodes limit mode part origin draft)
      (Draft.Matched id (Same fun _ => True)) := by
  -- With every include that is entered the limit falls by one and the stack grows by one.
  induction limit generalizing pushed mode part origin draft with
  | zero =>
    have few := (List.nodup_append.mp distinct).1.length_le_of_subset reachable
    omega
  | succ limit ih =>
    have fine := bounded_append distinct reachable
    have within (term : IncludeTerm) : Within (watching (Bounded texts start)) texts
        (pushed ++ start) (fun _ => True) (readSection keycodes limit .override : SectionReader Id γ)
        (watchSection keycodes limit .override) term := by
      intro part offered fresh origin draft _
      refine ih (⟨term.file.getD "", part.name, SectionContents.kind γ⟩ :: pushed)
        (List.nodup_cons.mpr ⟨fresh, distinct⟩) ?_ ?_ _ part origin draft
      · obtain ⟨sections, held, member⟩ := offered.held
        have reached := Library.mem_frames noRoots unparsed held member
        exact List.cons_subset.mpr ⟨reached, reachable⟩
      · rw [List.length_cons]
        omega
    -- Unwatched, nothing happens where the stack is noted.
    exact (watching _).next (noteStack_follows fine) fun _ _ _ =>
      (watching _).next (maintains_true.readStatements keycodes _ part.name (fun _ _ => trivial)
        (fun _ _ term _ _ => within term) trivial) fun _ _ same =>
        (watching _).next (noteStack_follows fine) fun _ _ _ => (watching _).pure same

end Inclusion

namespace Assembly

/-- A watch that agrees with a run over a section and saw nothing amiss. -/
structure Watches (start : Library) (watch : Watch)
    (run : Option (List IndicatorDraft) × Assembly) : Prop where
  clean : run.1.isSome = watch.clean
  library : run.2.library = watch.library
  bounded : ∀ stack ∈ watch.seen, Bounded start start.stack stack
  unwound : watch.library.stack = start.stack

theorem applyPart_watched {γ : Type} [SectionContents γ] (assembly : Assembly) (mode : MergeMode)
    (part : Section) (noRoots : assembly.library.roots = [])
    (unparsed : assembly.library.parsed = []) (distinct : assembly.library.stack.Nodup)
    (apply : Applying γ) :
    ∃ watch, watchAs γ assembly mode part = some watch ∧
      Watches assembly.library watch (applyPart mode part apply assembly) := by
  have start : AtStack assembly.library assembly.library.stack assembly.workspace :=
    ⟨Library.Extends.refl _, rfl⟩
  have enough := assembly.library.frames_le_reach (SectionContents.kind γ)
  -- No include of the section itself is followed yet.
  obtain ⟨draft, ended, ⟨sameDraft, ends⟩, traced⟩ := @readSection_follows γ _ _ noRoots unparsed
    assembly.library.stack assembly.keymap.keycodes
    (Library.termCount part + assembly.library.reach + 1) [] (by simpa using distinct)
    (List.nil_subset _) (by simp only [List.length_nil]; omega) mode part .main Draft.empty _ _
    start.both
  obtain ⟨seen, ran, fine⟩ := traced []
  change Draft.Matched id _ (reading γ assembly mode part).1 draft at sameDraft
  change Workspace.Matched _ _ _ (reading γ assembly mode part).2 ended at ends
  obtain ⟨sameLibrary, -, unwound⟩ := ends.libraries
  refine ⟨⟨draft.isClean, ended.library, seen⟩, by simp [watchAs, ran], ?_⟩
  rw [sameDraft.isClean_eq, ← sameLibrary]
  cases clean : (reading γ assembly mode part).1.isClean with
  | false =>
    rw [applyPart_of_errors apply clean]
    exact ⟨rfl, rfl, fine, unwound⟩
  | true =>
    rw [applyPart_of_clean apply clean]
    exact ⟨rfl, rfl, fine, unwound⟩

/-- Compiling a section ends and unwinds: no include is followed deeper than the limit, on the way
the stack never holds an include twice nor more than twice as many further includes as there are
sections, and in the end it is the one there was at the start. -/
theorem compilePart_unwinds (assembly : Assembly) (mode : MergeMode) (part : Section)
    (compiled : part.kind ∈ SectionKind.compiled) (noRoots : assembly.library.roots = [])
    (unparsed : assembly.library.parsed = []) (distinct : assembly.library.stack.Nodup) :
    (∃ watch, assembly.watchPart mode part = some watch ∧
      (compilePart mode part assembly).1.isSome = watch.clean ∧
      (compilePart mode part assembly).2.library = watch.library ∧
      ∀ stack ∈ watch.seen, stack.Nodup ∧
        stack.length ≤ assembly.library.stack.length + 2 * assembly.library.sectionCount) ∧
    (compilePart mode part assembly).2.library.stack = assembly.library.stack := by
  have settle {γ : Type} [SectionContents γ] {apply}
      (same : compilePart mode part = applyPart (γ := γ) mode part apply)
      (watched : assembly.watchPart mode part = watchAs γ assembly mode part) :
      ∃ watch, assembly.watchPart mode part = some watch ∧
        Watches assembly.library watch (compilePart mode part assembly) := by
    rw [same, watched]
    exact applyPart_watched assembly mode part noRoots unparsed distinct apply
  have watched : ∃ watch, assembly.watchPart mode part = some watch ∧
      Watches assembly.library watch (compilePart mode part assembly) := by
    simp only [SectionKind.compiled, List.mem_cons, List.not_mem_nil, or_false] at compiled
    rcases compiled with kind | kind | kind | kind <;>
      exact settle (by simp [compilePart, kind]; rfl) (by simp [watchPart, kind])
  obtain ⟨watch, found, watches⟩ := watched
  refine ⟨⟨watch, found, watches.clean, watches.library, watches.bounded⟩, ?_⟩
  rw [watches.library, watches.unwound]

/-- Two texts that include each other, with another include being followed already. -/
def cyclic : Assembly :=
  .start 0
    { Library.empty with
      sources := [("symbols/a", "xkb_symbols \"m\" \x7b include \"b(m)\" \x7d;"),
        ("symbols/b", "xkb_symbols \"m\" \x7b include \"a(m)\" \x7d;")]
      stack := [⟨"c", "m", .symbols⟩] }

/-- A section that includes one of two texts that include each other. -/
def cyclicPart : Section :=
  ⟨.symbols, "n", 0, [.inclusion ⟨.unspecified, "a(m)", [⟨.unspecified, "a", "m", none⟩]⟩], []⟩

/-- Texts that include each other are left again. -/
theorem compilePart_unwinds_cyclic :
    cyclicPart.kind ∈ SectionKind.compiled ∧ cyclic.library.roots = [] ∧
      cyclic.library.parsed = [] ∧ cyclic.library.stack.Nodup ∧
      (∃ watch, cyclic.watchPart .override cyclicPart = some watch ∧
        ∀ stack ∈ watch.seen, stack.Nodup ∧
          stack.length ≤ cyclic.library.stack.length + 2 * cyclic.library.sectionCount) ∧
      (compilePart .override cyclicPart cyclic).2.library.stack = cyclic.library.stack := by
  have compiled : cyclicPart.kind ∈ SectionKind.compiled := by decide
  have distinct : cyclic.library.stack.Nodup := by decide
  obtain ⟨⟨watch, found, -, -, bounded⟩, unwound⟩ :=
    compilePart_unwinds cyclic .override cyclicPart compiled rfl rfl distinct
  exact ⟨compiled, rfl, rfl, distinct, ⟨watch, found, bounded⟩, unwound⟩

end Assembly

end Xkb
