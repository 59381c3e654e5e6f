import Xkb.Compiler
import Xkb.Proofs.AssemblyAlike
import Xkb.Proofs.Section.Sharing

/-! A compiler that was used before compiles as a new one does: what its library has parsed makes no
difference. -/

namespace Xkb

open Library

namespace Assembly

variable {texts : Library}

/-- A section is read alike whatever of the same texts was parsed before. -/
theorem readAlike_sharing (γ : Type) [SectionContents γ] (unparsed : texts.parsed = [])
    (mode : MergeMode) (part : Section) : ReadAlike γ Eq (Sharing texts [] []) mode part := by
  rintro ⟨keymap, diagnostics, library⟩ ⟨_, _, other⟩ ⟨rfl, rfl, sharing⟩
  -- The section itself and those of the texts are all that can be come to.
  have explored : texts.Explored (SectionContents.kind γ)
      (texts.targetFrames (SectionContents.kind γ) (part :: texts.allSections))
      fun known => known ∈ part :: texts.allSections := by
    intro known visited term stands _ found origin leads
    exact ⟨List.mem_cons_of_mem part (target_mem leads), frameTo_mem visited stands leads⟩
  have few := texts.targetFrames_cons_length (SectionContents.kind γ) part
  -- A library with parsed files allows more depth, which is never needed.
  have leftReach : texts.reach ≤ library.reach := sharing.leftTexts.reach_le unparsed
  have rightReach : texts.reach ≤ other.reach := sharing.rightTexts.reach_le unparsed
  have same : Draft.Matched id Eq (Draft.empty : Draft γ) Draft.empty := ⟨rfl, rfl⟩
  have read := readSection_sharing Lenient.refl (Admits.anything γ)
    (Uniform.refl γ keymap.keycodes) unparsed explored [] (fun _ _ => List.not_mem_nil)
    (termCount part + library.reach + 1) (termCount part + other.reach + 1) []
    (List.nil_subset _) (by rw [List.length_nil]; omega) (by rw [List.length_nil]; omega) mode
    List.mem_cons_self .main same
  obtain ⟨sameDraft, sameWorkspace⟩ := read ⟨keymap.modifiers, diagnostics, library⟩
    ⟨keymap.modifiers, diagnostics, other⟩ ⟨rfl, True.intro, rfl, sharing⟩
  exact ⟨sameDraft.eq, sameWorkspace⟩

/-- A section is compiled alike whatever of the same texts was parsed before. -/
theorem compilePart_sharing (unparsed : texts.parsed = []) (mode : MergeMode) (part : Section) :
    Alike (Matched Eq (Sharing texts [] [])) (compilePart mode part) (compilePart mode part) Eq := by
  simp only [compilePart]
  -- Applying what was read does not look at the library.
  split
  · exact applyPart_alike (readAlike_sharing _ unparsed mode part) fun _ _ _ => .refl _
  · exact applyPart_alike (readAlike_sharing _ unparsed mode part) fun _ _ _ => .refl _
  · exact applyPart_alike (readAlike_sharing _ unparsed mode part) fun _ _ _ => .refl _
  · exact applyPart_alike (readAlike_sharing _ unparsed mode part) fun _ _ _ => .refl _
  · exact .pure rfl

theorem compileKinds_sharing (unparsed : texts.parsed = []) (chosen : List Section)
    (kinds : List SectionKind) (unbound : List IndicatorDraft) :
    Alike (Matched Eq (Sharing texts [] [])) (compileKinds chosen kinds unbound)
      (compileKinds chosen kinds unbound) Eq := by
  induction kinds generalizing unbound with
  | nil => exact .pure rfl
  | cons kind rest ih =>
    simp only [compileKinds]
    split
    · exact ih unbound
    · refine .bindSame (compilePart_sharing unparsed .override _) fun outcome => ?_
      -- Both compilers give up at this part, or none does.
      cases outcome with
      | none => exact .pure rfl
      | some left => exact ih (unbound ++ left)

/-- A composite section is compiled alike whatever of the same texts was parsed before. -/
theorem compileComposite_sharing (unparsed : texts.parsed = []) (part : Section) :
    Alike (Matched Eq (Sharing texts [] [])) (compileComposite part) (compileComposite part) Eq := by
  simp only [compileComposite]
  refine .ite (fun _ => .pure rfl) fun _ => ?_
  refine .bindSame (report_alike (.refl _)) fun chosen => ?_
  -- A part that is missing is reported by both before anything is compiled.
  split
  · exact .bind (report_alike (.refl _)) fun _ _ _ => .pure rfl
  · refine .bind (report_alike (.refl _)) fun _ _ _ => ?_
    refine .bindSame (compileKinds_sharing unparsed chosen _ []) fun outcome => ?_
    cases outcome with
    | error error => exact .pure rfl
    | ok unbound =>
      refine .bind (bindLeftover_alike (fun _ _ => .refl _) unbound) ?_
      exact fun _ _ _ => .pure rfl

end Assembly

namespace Compiler

/-- What a compiler is asked for: to compile one of the maps of a text, or a section that is read
already. -/
inductive Request where
  | text (text : String) (map : Option String)
  | parsed (part : Section)

/-- Answers a request. -/
def serve (compiler : Compiler) : Request → Except CompileError Keymap × Compiler
  | .text text map => compiler.compileText text map
  | .parsed part => compiler.compileSection part

/-- What can be seen of the answer to a request: the keymap or the error, and what was reported. -/
def answer (compiler : Compiler) (request : Request) :
    Except CompileError Keymap × List Diagnostic :=
  ((compiler.serve request).1, (compiler.serve request).2.diagnostics)

/-- What can be seen of a session: the answers to requests one after another. -/
def answers : Compiler → List Request → List (Except CompileError Keymap × List Diagnostic)
  | _, [] => []
  | compiler, request :: rest => compiler.answer request :: answers (compiler.serve request).2 rest

/-- Makes texts includable, one after another. -/
def addSources (compiler : Compiler) (sources : List (SectionKind × String × String)) : Compiler :=
  sources.foldl (fun compiler source => compiler.addSource source.1 source.2.1 source.2.2) compiler

/-- Two compilers of the same level whose libraries share their texts, with no include being
followed. -/
structure Sharing (texts : Library) (left right : Compiler) : Prop where
  level : left.level = right.level
  libraries : Library.Sharing texts [] [] left.library right.library

variable {texts : Library} {left right : Compiler}

theorem compileSection_keymap (compiler : Compiler) (part : Section) :
    let made := Assembly.compileComposite part (.start compiler.level compiler.library)
    (compiler.compileSection part).1 = made.1.map fun _ => made.2.keymap :=
  rfl

theorem compileSection_sharing (unparsed : texts.parsed = []) (sharing : Sharing texts left right)
    (part : Section) :
    (left.compileSection part).1 = (right.compileSection part).1 ∧
      (left.compileSection part).2.diagnostics = (right.compileSection part).2.diagnostics ∧
      Sharing texts (left.compileSection part).2 (right.compileSection part).2 := by
  have begins : Assembly.Matched Eq (Library.Sharing texts [] [])
      (.start left.level left.library) (.start right.level right.library) :=
    ⟨rfl, congrArg Diagnostics.atLevel sharing.level, sharing.libraries⟩
  obtain ⟨same, ends⟩ := Assembly.compileComposite_sharing unparsed part _ _ begins
  -- The answer is made of the outcome and the keymap, and both are the same.
  refine ⟨?_, congrArg Diagnostics.records ends.reports, sharing.level, ends.libraries⟩
  rw [compileSection_keymap, compileSection_keymap, same, ends.keymap]

theorem serve_sharing (unparsed : texts.parsed = []) (sharing : Sharing texts left right)
    (request : Request) :
    left.answer request = right.answer request ∧
      Sharing texts (left.serve request).2 (right.serve request).2 := by
  -- What can be seen is put together from the two facts in each of the cases.
  have settle {first second : Except CompileError Keymap × Compiler}
      (known : first.1 = second.1 ∧ first.2.diagnostics = second.2.diagnostics ∧
        Sharing texts first.2 second.2) :
      (first.1, first.2.diagnostics) = (second.1, second.2.diagnostics) ∧
        Sharing texts first.2 second.2 :=
    ⟨by rw [known.1, known.2.1], known.2.2⟩
  cases request with
  | parsed part => exact settle (compileSection_sharing unparsed sharing part)
  | text text map =>
    -- What was reported before is forgotten first.
    have fresh : Sharing texts { left with diagnostics := [] } { right with diagnostics := [] } :=
      ⟨sharing.level, sharing.libraries⟩
    refine settle ?_
    simp only [serve, compileText]
    split
    · exact ⟨rfl, rfl, fresh⟩
    · split
      · exact ⟨rfl, rfl, fresh⟩
      · -- The text was read without the library, so both compile the same section.
        exact compileSection_sharing unparsed fresh _

theorem serve_level (compiler : Compiler) (request : Request) :
    (compiler.serve request).2.level = compiler.level := by
  cases request with
  | parsed part => rfl
  | text text map =>
    simp only [serve, compileText]
    split
    · rfl
    · split <;> rfl

theorem answers_sharing (unparsed : texts.parsed = []) {fresh : Compiler}
    (sharing : Sharing texts left fresh) (requests : List Request) :
    left.answers requests = requests.map fresh.answer := by
  -- The compiler changes from request to request, and only its library matters.
  induction requests generalizing left with
  | nil => rfl
  | cons request rest ih =>
    obtain ⟨same, after⟩ := serve_sharing unparsed sharing request
    -- The answer leaves a compiler that still shares its texts with the one that was not used.
    have sharesOn : Sharing texts (left.serve request).2 fresh :=
      ⟨(left.serve_level request).trans sharing.level, after.libraries.leftTexts,
        sharing.libraries.rightTexts, after.libraries.leftStack, sharing.libraries.rightStack,
        List.nodup_nil⟩
    rw [answers, List.map_cons, same, ih sharesOn]

/-- Texts that are added leave a library without parsed files and without includes that are being
followed. -/
theorem addSources_unused (compiler : Compiler) (sources : List (SectionKind × String × String)) :
    (compiler.addSources sources).library.parsed = compiler.library.parsed ∧
      (compiler.addSources sources).library.stack = compiler.library.stack := by
  induction sources generalizing compiler with
  | nil => exact ⟨rfl, rfl⟩
  | cons source rest ih => exact ih (compiler.addSource source.1 source.2.1 source.2.2)

/-- What a compiler has parsed makes no difference: after any texts were made includable, each
request of a session is answered, and reported on, as the same request to a new compiler with the
same texts. -/
theorem answers_eq_fresh (level : Nat) (roots : List String) (files : FileTree)
    (sources : List (SectionKind × String × String)) (requests : List Request) :
    let fresh := (new level { Library.empty with roots, files }).addSources sources
    fresh.answers requests = requests.map fresh.answer := by
  intro fresh
  obtain ⟨unparsed, unused⟩ := addSources_unused (new level { Library.empty with roots, files })
    sources
  have sharing : Sharing fresh.library fresh fresh :=
    ⟨rfl, Extends.refl _, Extends.refl _, unused, unused, List.nodup_nil⟩
  exact answers_sharing unparsed sharing requests

end Compiler

end Xkb
