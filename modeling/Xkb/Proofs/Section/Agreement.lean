import Xkb.Proofs.Accounts
import Xkb.Proofs.Library

/-! Two readings of the same sections go alike where their statements, their includes and their
libraries do. -/

namespace Xkb

open SectionContents (absorb builtin forTerm)

/-- A relation between computations over two kinds of further effects, each with what is known of
the workspaces before it and of the values and the workspaces after it. -/
structure Lockstep (m n : Type → Type) [Monad m] [Monad n] where
  relates : {α β : Type} → (Workspace → Workspace → Prop) → ReadingT m α → ReadingT n β →
    (α → β → Workspace → Workspace → Prop) → Prop
  /-- A step on each workspace without further effects. -/
  step : ∀ {α β : Type} {before : Workspace → Workspace → Prop}
    {after : α → β → Workspace → Workspace → Prop} (run : Workspace → α × Workspace)
    (other : Workspace → β × Workspace),
    (∀ first second, before first second →
      after (run first).1 (other second).1 (run first).2 (other second).2) →
        relates before (fun workspace => pure (run workspace))
          (fun workspace => pure (other workspace)) after
  /-- One computation after another. -/
  bind : ∀ {α β γ δ : Type} {before : Workspace → Workspace → Prop}
    {middle : α → β → Workspace → Workspace → Prop}
    {after : γ → δ → Workspace → Workspace → Prop} {left : ReadingT m α} {right : ReadingT n β}
    {leftNext : α → ReadingT m γ} {rightNext : β → ReadingT n δ},
    relates before left right middle →
      (∀ value other, relates (middle value other) (leftNext value) (rightNext other) after) →
        relates before (left >>= leftNext) (right >>= rightNext) after
  /-- More may be known before, and less afterwards. -/
  mono : ∀ {α β : Type} {before stronger : Workspace → Workspace → Prop}
    {after weaker : α → β → Workspace → Workspace → Prop} {left : ReadingT m α}
    {right : ReadingT n β}, relates before left right after →
      (∀ first second, stronger first second → before first second) →
        (∀ value other first second, after value other first second →
          weaker value other first second) → relates stronger left right weaker
  /-- What is known at the start may be used throughout. -/
  assume : ∀ {α β : Type} {before : Workspace → Workspace → Prop}
    {after : α → β → Workspace → Workspace → Prop} {left : ReadingT m α} {right : ReadingT n β},
    (∀ first second, before first second → relates before left right after) →
      relates before left right after

/-- Computations without further effects. -/
def plainly : Lockstep Id Id where
  relates := Coupled
  step _ _ ends := ends
  bind := Coupled.bind
  mono ends stronger weaker first second begins :=
    weaker _ _ _ _ (ends first second (stronger first second begins))
  assume ends first second begins := ends first second begins first second begins

namespace Lockstep

variable {m n : Type → Type} [Monad m] [Monad n] (lockstep : Lockstep m n) {α β γ δ : Type}
  {states : Workspace → Workspace → Prop} {values : α → β → Prop} {results : γ → δ → Prop}
  {left : ReadingT m α} {right : ReadingT n β} {leftNext : α → ReadingT m γ}
  {rightNext : β → ReadingT n δ} {after : γ → δ → Workspace → Workspace → Prop}

/-- Two computations come to values that belong together, and to workspaces that still do. -/
def alike (states : Workspace → Workspace → Prop) (left : ReadingT m α) (right : ReadingT n β)
    (values : α → β → Prop) : Prop :=
  lockstep.relates states left right fun value other first second =>
    values value other ∧ states first second

theorem pure {value : α} {other : β} (known : values value other) :
    lockstep.alike states (Pure.pure value) (Pure.pure other) values :=
  lockstep.step (fun workspace => (value, workspace)) (fun workspace => (other, workspace))
    fun _ _ begins => ⟨known, begins⟩

/-- What the first computations come to is all that the next ones may rely on. -/
theorem next (start : lockstep.alike states left right values)
    (rest : ∀ value other, values value other →
      lockstep.relates states (leftNext value) (rightNext other) after) :
    lockstep.relates states (left >>= leftNext) (right >>= rightNext) after :=
  lockstep.bind start fun value other => lockstep.assume fun _ _ begins =>
    lockstep.mono (rest value other begins.1) (fun _ _ known => known.2) fun _ _ _ _ ends => ends

/-- Looking at the workspaces. -/
theorem look {leftNext : Workspace → ReadingT m γ} {rightNext : Workspace → ReadingT n δ}
    (rest : ∀ first second, states first second →
      lockstep.relates states (leftNext first) (rightNext second) after) :
    lockstep.relates states (get >>= leftNext) (get >>= rightNext) after := by
  have looks : lockstep.relates states get get fun value other first second =>
      (value = first ∧ other = second) ∧ states first second :=
    lockstep.step (fun workspace => (workspace, workspace)) (fun workspace => (workspace, workspace))
      fun _ _ begins => ⟨⟨rfl, rfl⟩, begins⟩
  refine lockstep.bind looks fun value other => lockstep.assume ?_
  rintro _ _ ⟨⟨rfl, rfl⟩, begins⟩
  exact lockstep.mono (rest _ _ begins) (fun _ _ known => known.2) fun _ _ _ _ ends => ends

/-- Changing the workspaces. -/
theorem change {update otherUpdate : Workspace → Workspace} (later : Workspace → Workspace → Prop)
    {leftNext : PUnit → ReadingT m γ} {rightNext : PUnit → ReadingT n δ}
    (changes : ∀ first second, states first second → later (update first) (otherUpdate second))
    (rest : lockstep.relates later (leftNext ⟨⟩) (rightNext ⟨⟩) after) :
    lockstep.relates states (modify update >>= leftNext) (modify otherUpdate >>= rightNext) after :=
  lockstep.bind (lockstep.step (fun workspace => (PUnit.unit, update workspace))
    (fun workspace => (PUnit.unit, otherUpdate workspace)) changes) fun _ _ => rest

end Lockstep

/-- The definition from elsewhere. -/
def Definition.move (moved : Origin → Origin) (definition : Definition) : Definition :=
  { definition with origin := moved definition.origin }

theorem Definition.inMode_move (moved : Origin → Origin) (mode : MergeMode) (definition : Definition) :
    (definition.move moved).inMode mode = (definition.inMode mode).move moved := by
  simp only [inMode]
  split <;> rfl

/-- The header of a section that comes from elsewhere. -/
def Header.move (moved : Origin → Origin) (header : Header) : Header :=
  { header with origin := moved header.origin }

namespace Draft

variable {γ : Type}

theorem isClean_eq_false {draft : Draft γ} : draft.isClean = false ↔ 0 < draft.header.errors := by
  simp only [isClean, beq_eq_false_iff_ne]
  omega

theorem addErrors_dirty (draft : Draft γ) {count : Nat}
    (some : draft.isClean = false ∨ 0 < count) : (draft.addErrors count).isClean = false := by
  rw [isClean_eq_false] at some ⊢
  simp only [addErrors]
  omega

/-- Errors on either side are counted when one draft is added to another. -/
theorem absorb_dirty [SectionContents γ] (scope : Scope) (mode : MergeMode) {new old : Draft γ}
    (dirty : new.isClean = false ∨ old.isClean = false) :
    Gives (Draft.absorb scope mode new old) fun made => made.isClean = false := by
  refine .ite (fun unclean => .pure ?_) fun clean => ?_
  · -- A draft with errors is not added, but its errors are.
    have errors : 0 < new.header.errors := isClean_eq_false.mp (by simpa using unclean)
    exact addErrors_dirty old (.inr errors)
  · -- The new draft is clean, so the errors are in the old one and stay there.
    have oldDirty : old.isClean = false := dirty.resolve_left (by simpa using clean)
    refine .after fun made => .pure ?_
    rw [isClean_eq_false] at oldDirty ⊢
    dsimp only
    omega

end Draft

/-- Two drafts of one section: the second is from elsewhere, and the contents belong together. -/
structure Draft.Matched {γ : Type} (moved : Origin → Origin) (contents : γ → γ → Prop)
    (left right : Draft γ) : Prop where
  header : right.header = left.header.move moved
  contents : contents left.contents right.contents

/-- Two workspaces with the same modifiers, of an allowed kind, whose reports and libraries belong
together. -/
structure Workspace.Matched (reports : Diagnostics → Diagnostics → Prop)
    (allowed : VirtualModifiers → Prop) (libraries : Library → Library → Prop)
    (left right : Workspace) : Prop where
  modifiers : left.modifiers = right.modifiers
  allowed : allowed left.modifiers
  reports : reports left.diagnostics right.diagnostics
  libraries : libraries left.library right.library

/-- Two outcomes: the same error, or values that belong together. -/
inductive MatchedOutcome {ε α β : Type} (values : α → β → Prop) : Except ε α → Except ε β → Prop
  | ok {value : α} {other : β} (known : values value other) :
    MatchedOutcome values (.ok value) (.ok other)
  | error (error : ε) : MatchedOutcome values (.error error) (.error error)

/-- Reports that belong together stay so at what reading itself reports. -/
structure Lenient (reports : Diagnostics → Diagnostics → Prop) : Prop where
  error : ∀ message actions,
    Alike reports (Report.error message actions) (Report.error message actions) Eq
  pick : ∀ sections kind file map, Alike reports (Library.pick sections kind file map)
    (Library.pick sections kind file map) Eq
  declare : ∀ (modifiers : VirtualModifiers) name value merge,
    Alike reports (modifiers.declare name value merge) (modifiers.declare name value merge) Eq

/-- Declaring a modifier keeps modifiers of an allowed kind, where a section may declare some. -/
def Admits (γ : Type) [SectionContents γ] (allowed : VirtualModifiers → Prop) : Prop :=
  SectionContents.declaresModifiers γ = true → ∀ modifiers name value merge, allowed modifiers →
    Gives (VirtualModifiers.declare modifiers name value merge) fun outcome =>
      ∀ made, outcome = .ok made → allowed made.1

theorem Admits.anything (γ : Type) [SectionContents γ] : Admits γ fun _ => True :=
  fun _ _ _ _ _ _ _ _ _ => True.intro

/-- Contents that are added to other contents on both sides come to contents that belong together. -/
def AbsorbsAlike (γ : Type) [SectionContents γ] (keycodes : KeycodeTable)
    (reports : Diagnostics → Diagnostics → Prop) (moved : Origin → Origin)
    (news olds mades : γ → γ → Prop) : Prop :=
  ∀ modifiers mode header new otherNew old otherOld, news new otherNew → olds old otherOld →
    Alike reports (absorb ⟨modifiers, keycodes⟩ mode header new old)
      (absorb ⟨modifiers, keycodes⟩ mode (header.move moved) otherNew otherOld)
      fun made other => mades made.1 other.1 ∧ made.2 = other.2

/-- A statement is handled alike in contents that belong together, which then still do. -/
def HandlesAlike (γ : Type) [SectionContents γ] (keycodes : KeycodeTable)
    (reports : Diagnostics → Diagnostics → Prop) (moved : Origin → Origin)
    (contents : γ → γ → Prop) (statement : Statement) : Prop :=
  ∀ modifiers header mode left right, contents left right →
    Alike reports (SectionContents.handle ⟨modifiers, keycodes⟩ header mode statement left)
      (SectionContents.handle ⟨modifiers, keycodes⟩ (header.move moved) mode statement right)
      fun made other => contents made.1 other.1 ∧ made.2 = other.2

/-- Contents of included sections and those of the including one, which may belong together in
another way, stay so at whatever an include does with them. -/
structure Inclusive (γ : Type) [SectionContents γ] (keycodes : KeycodeTable)
    (reports : Diagnostics → Diagnostics → Prop) (moved : Origin → Origin)
    (guests hosts : γ → γ → Prop) : Prop where
  initial : moved .initial = .initial
  empty : guests SectionContents.empty SectionContents.empty
  builtinGuest : ∀ term left right, guests left right →
    Option.Rel guests (builtin term left) (builtin term right)
  builtinHost : ∀ term left right, hosts left right →
    Option.Rel hosts (builtin term left) (builtin term right)
  meet : AbsorbsAlike γ keycodes reports moved guests guests guests
  welcome : AbsorbsAlike γ keycodes reports moved guests hosts hosts

/-- Contents that belong together stay so at whatever reading does with them. -/
structure Uniform (γ : Type) [SectionContents γ] (keycodes : KeycodeTable)
    (reports : Diagnostics → Diagnostics → Prop) (moved : Origin → Origin)
    (contents : γ → γ → Prop) : Prop where
  initial : moved .initial = .initial
  included : ∀ file position, moved (.included file position) = .included file position
  empty : contents SectionContents.empty SectionContents.empty
  forTerm : ∀ term left right, contents left right →
    contents (forTerm term left) (forTerm term right)
  builtin : ∀ term left right, contents left right →
    Option.Rel contents (builtin term left) (builtin term right)
  handle : ∀ statement, HandlesAlike γ keycodes reports moved contents statement
  absorb : AbsorbsAlike γ keycodes reports moved contents contents contents

/-- Where all contents belong together in one way, included ones do as the including ones. -/
theorem Uniform.inclusive {γ : Type} [SectionContents γ] {keycodes : KeycodeTable}
    {reports : Diagnostics → Diagnostics → Prop} {moved : Origin → Origin}
    {contents : γ → γ → Prop} (uniform : Uniform γ keycodes reports moved contents) :
    Inclusive γ keycodes reports moved contents contents :=
  ⟨uniform.initial, uniform.empty, uniform.builtin, uniform.builtin, uniform.absorb, uniform.absorb⟩

theorem Lenient.refl : Lenient Eq where
  error _ _ := Alike.refl _
  pick _ _ _ _ := Alike.refl _
  declare _ _ _ _ := Alike.refl _

section Levels

variable {levels : Nat → Nat → Prop}

/-- Which section is chosen is the same at all levels. -/
theorem Library.pick_alike (sections : List Section) (kind : SectionKind) (file : String)
    (map : Option String) :
    AnswersAlike levels (pick sections kind file map) (pick sections kind file map) Eq
      fun _ => False := by
  -- A note on an include without a map is given at some levels only.
  have chosen : AnswersAlike levels (choose sections kind file map) (choose sections kind file map)
      Eq fun _ => False := by
    simp only [choose]
    split
    · split <;> exact .pure rfl id
    · split
      · exact .pure rfl id
      · exact .pure rfl id
      · exact .level fun _ _ _ => .warnIf (.pure rfl (by simp))
  refine .bindSame chosen fun position => ?_
  split
  · exact .pure rfl (by simp)
  · split
    · exact .pure rfl (by simp)
    · exact .ite (fun _ => .pure rfl (by simp)) fun _ => .pure rfl (by simp)

/-- A modifier is declared alike at all levels, or refused with an error. -/
theorem VirtualModifiers.declare_alike (modifiers : VirtualModifiers) (name : String)
    (value : Option Expr) (merge : MergeMode) :
    AnswersAlike levels (modifiers.declare name value merge) (modifiers.declare name value merge) Eq
      fun outcome => ∃ cause, outcome = .error cause := by
  -- Whether a modifier is bound again is decided before the warning, not by it.
  have rebound (slot : Nat) (real : UInt8) : AnswersAlike levels
      (modifiers.rebind slot name real merge) (modifiers.rebind slot name real merge) Eq
      fun _ => False := by
    simp only [rebind]
    split
    · exact .pure rfl id
    · exact .ite (fun _ => .pure rfl id) fun _ => .warn (.pure rfl id)
  have defined (real : Option UInt8) : AnswersAlike levels (modifiers.define name real merge)
      (modifiers.define name real merge) Eq fun _ => False := by
    simp only [define]
    split
    · split
      · exact .pure rfl id
      · exact .bindSame (rebound _ _) fun made => .pure rfl (by simp)
    · split <;> exact .pure rfl id
  simp only [declare]
  split
  · exact .refuse rfl
  · refine .bindSame (defined _) fun outcome => ?_
    cases outcome with
    | error cause => exact .refuse rfl
    | ok made => exact .pure rfl (by simp)

/-- Levels that belong together do so whatever reading reports. -/
theorem Lenient.atLevels (levels : Nat → Nat → Prop) : Lenient (AtLevels levels) where
  error _ _ := AtLevels.error (.pure rfl)
  pick sections kind file map := (Library.pick_alike sections kind file map).alike
  declare modifiers name value merge := (modifiers.declare_alike name value merge).alike

end Levels

/-- The same contents stay the same. -/
theorem Uniform.refl (γ : Type) [SectionContents γ] (keycodes : KeycodeTable) :
    Uniform γ keycodes Eq id Eq where
  initial := rfl
  included _ _ := rfl
  empty := rfl
  forTerm _ _ _ same := same ▸ rfl
  builtin := by
    intro term left other same
    subst same
    cases SectionContents.builtin term left with
    | none => exact .none
    | some made => exact .some rfl
  handle := by
    intro statement modifiers header mode left other same
    subst same
    exact .mono (.refl _) fun made other same => same ▸ ⟨rfl, rfl⟩
  absorb := by
    intro modifiers mode header new otherNew old otherOld sameNew sameOld
    subst sameNew sameOld
    exact .mono (.refl _) fun made other same => same ▸ ⟨rfl, rfl⟩

namespace Draft.Matched

variable {γ : Type} {moved : Origin → Origin} {contents : γ → γ → Prop} {left right : Draft γ}

theorem eq (same : Draft.Matched id Eq left right) : left = right := by
  obtain ⟨sameHeader, sameContents⟩ := same
  cases left
  cases right
  cases sameContents
  cases sameHeader
  rfl

variable (same : Draft.Matched moved contents left right)

include same

theorem errors_eq : right.header.errors = left.header.errors := by
  rw [same.header]
  rfl

theorem isClean_eq [SectionContents γ] : right.isClean = left.isClean := by
  simp only [Draft.isClean, same.errors_eq]

theorem addErrors [SectionContents γ] (count : Nat) :
    Draft.Matched moved contents (left.addErrors count) (right.addErrors count) :=
  ⟨by simp [Draft.addErrors, same.header, Header.move], same.contents⟩

theorem withContents {made other : γ} (known : contents made other) :
    Draft.Matched moved contents { left with contents := made } { right with contents := other } :=
  ⟨same.header, known⟩

theorem begin [SectionContents γ] (name : String) (origin : Origin) :
    Draft.Matched moved contents (left.begin name origin) (right.begin name (moved origin)) :=
  ⟨by simp [Draft.begin, same.header, Header.move], same.contents⟩

theorem rename (name : Option String) :
    Draft.Matched moved contents { left with header := { left.header with name } }
      { right with header := { right.header with name } } :=
  ⟨by simp [same.header, Header.move], same.contents⟩

end Draft.Matched

namespace Lockstep

variable {m n : Type → Type} [Monad m] [Monad n] (lockstep : Lockstep m n)
  {reports : Diagnostics → Diagnostics → Prop} {allowed : VirtualModifiers → Prop}
  {libraries : Library → Library → Prop} {α β : Type} {values : α → β → Prop}

/-- Reporting leaves the rest of the workspaces alone. -/
theorem report {left : Report α} {right : Report β} (known : Alike reports left right values) :
    lockstep.alike (Workspace.Matched reports allowed libraries) (Reading.report left)
      (Reading.report right) values := by
  refine lockstep.look fun first second begins => ?_
  obtain ⟨same, ends⟩ := known _ _ begins.reports
  change values (left.run _).1 (right.run _).1 at same
  change reports (left.run _).2 (right.run _).2 at ends
  generalize left.run first.diagnostics = outcome at same ends ⊢
  generalize right.run second.diagnostics = otherOutcome at same ends ⊢
  obtain ⟨value, diagnostics⟩ := outcome
  obtain ⟨other, otherDiagnostics⟩ := otherOutcome
  refine lockstep.bind (lockstep.step (fun _ => (PUnit.unit, { first with diagnostics }))
    (fun _ => (PUnit.unit, { second with diagnostics := otherDiagnostics })) fun _ _ _ =>
      (?_ : Workspace.Matched reports allowed libraries _ _)) fun _ _ => lockstep.pure same
  exact ⟨begins.modifiers, begins.allowed, ends, begins.libraries⟩

/-- Names refer to the same on both sides. -/
theorem scope (keycodes : KeycodeTable) :
    lockstep.alike (Workspace.Matched reports allowed libraries) (Reading.scope keycodes)
      (Reading.scope keycodes)
      fun scope other => ∃ modifiers, scope = ⟨modifiers, keycodes⟩ ∧ other = scope :=
  lockstep.look fun first _ begins =>
    lockstep.pure ⟨first.modifiers, rfl, congrArg (Scope.mk · keycodes) begins.modifiers.symm⟩

/-- The same modifier is declared on both sides. -/
theorem declareModifier {γ : Type} [SectionContents γ] (lenient : Lenient reports)
    (admits : Admits γ allowed) (declares : SectionContents.declaresModifiers γ = true)
    (name : String) (value : Option Expr) (mode : MergeMode) :
    lockstep.alike (Workspace.Matched reports allowed libraries)
      (Reading.declareModifier name value mode) (Reading.declareModifier name value mode) Eq := by
  refine lockstep.look fun first second begins => ?_
  rw [← begins.modifiers]
  -- What is declared is of the allowed kind on the left, and the same on the right.
  refine lockstep.next (lockstep.report (.gives
    (lenient.declare first.modifiers name value mode)
    (admits declares first.modifiers name value mode begins.allowed))) ?_
  rintro (error | made) _ ⟨rfl, kept⟩
  · exact lockstep.pure rfl
  · exact lockstep.change _ (fun _ _ known => ⟨rfl, kept made rfl, known.reports, known.libraries⟩)
      (lockstep.pure rfl)

theorem find {kind : SectionKind} {file : String} {map : Option String}
    {chosen : Section → Origin → Prop}
    (find : ∀ first second, libraries first second →
      Alike reports (first.find kind file map) (second.find kind file map)
        fun found other => found.1 = other.1 ∧ libraries found.2 other.2 ∧
          ∀ part origin, found.1 = .ok (part, origin) → chosen part origin) :
    lockstep.alike (Workspace.Matched reports allowed libraries) (Reading.find kind file map)
      (Reading.find kind file map)
      fun found other => found = other ∧
        ∀ part origin, found = .ok (part, origin) → chosen part origin := by
  refine lockstep.look fun first second begins => ?_
  refine lockstep.next (lockstep.report (find _ _ begins.libraries)) ?_
  rintro ⟨found, library⟩ ⟨other, otherLibrary⟩ ⟨same, stay, chose⟩
  -- The library that was loaded takes the place of the one before.
  exact lockstep.change _ (fun _ _ known => ⟨known.modifiers, known.allowed, known.reports, stay⟩)
    (lockstep.pure ⟨same, chose⟩)

end Lockstep

section Sections

variable {m n : Type → Type} [Monad m] [Monad n] {lockstep : Lockstep m n} {γ : Type}
  [SectionContents γ] {keycodes : KeycodeTable} {reports : Diagnostics → Diagnostics → Prop}
  {moved : Origin → Origin} {contents : γ → γ → Prop} {allowed : VirtualModifiers → Prop}
  {libraries : Library → Library → Prop} {left : SectionReader m γ} {right : SectionReader n γ}

/-- Adding one draft to another: a draft with errors is not added, but they are counted. -/
theorem Draft.absorb_alike {news olds mades : γ → γ → Prop}
    (absorbs : AbsorbsAlike γ keycodes reports moved news olds mades)
    (modifiers : VirtualModifiers) (mode : MergeMode) {new otherNew old otherOld : Draft γ}
    (sameNew : Draft.Matched moved news new otherNew)
    (sameOld : Draft.Matched moved olds old otherOld) :
    Alike reports (Draft.absorb ⟨modifiers, keycodes⟩ mode new old)
      (Draft.absorb ⟨modifiers, keycodes⟩ mode otherNew otherOld)
      fun made other => new.isClean = true ∧ Draft.Matched moved mades made other ∨
        new.isClean = false ∧ Draft.Matched moved olds made other := by
  simp only [Draft.absorb, sameNew.isClean_eq, sameNew.header]
  -- A draft with errors only adds their number, which is the same.
  refine .ite (fun unclean => .pure (.inr ⟨by simpa using unclean, sameOld.addErrors _⟩))
    fun clean => ?_
  have absorbed := absorbs modifiers mode new.header _ _ _ _ sameNew.contents sameOld.contents
  refine .bind absorbed ?_
  rintro ⟨made, errors⟩ ⟨other, otherErrors⟩ ⟨sameContents, rfl⟩
  refine .pure (.inl ⟨by simpa using clean, ?_, sameContents⟩)
  simp [sameOld.header, Header.move]

variable {term : IncludeTerm}

variable (lockstep) in
/-- Reading the section that a term names goes alike if finding, entering, reading and leaving
it do. -/
theorem readTerm_alike (initial : moved .initial = .initial)
    (inner : Section → Library → Library → Prop) (chosen : Section → Origin → Prop)
    (find : ∀ first second, libraries first second →
      Alike reports (first.find (SectionContents.kind γ) (term.file.getD "") term.map)
        (second.find (SectionContents.kind γ) (term.file.getD "") term.map)
        fun found other => found.1 = other.1 ∧ libraries found.2 other.2 ∧
          ∀ part origin, found.1 = .ok (part, origin) → chosen part origin)
    (enter : ∀ part origin, chosen part origin → ∀ first second, libraries first second →
      MatchedOutcome (inner part)
        (first.enter ⟨term.file.getD "", part.name, SectionContents.kind γ⟩)
        (second.enter ⟨term.file.getD "", part.name, SectionContents.kind γ⟩))
    (leave : ∀ part first second, inner part first second → libraries first.leave second.leave)
    (read : ∀ part origin, chosen part origin → ∀ draft other,
      Draft.Matched moved contents draft other →
      lockstep.alike (Workspace.Matched reports allowed (inner part)) (left part origin draft)
        (right part origin other) (Draft.Matched moved contents)) {parent otherParent : γ}
    (starts : contents (forTerm term parent) (forTerm term otherParent)) :
    lockstep.alike (Workspace.Matched reports allowed libraries) (readTerm left parent term)
      (readTerm right otherParent term) (MatchedOutcome (Draft.Matched moved contents)) := by
  refine lockstep.next (lockstep.find find) ?_
  rintro (error | ⟨part, origin⟩) _ ⟨rfl, chose⟩
  · exact lockstep.pure (.error error)
  have isChosen := chose part origin rfl
  refine lockstep.look fun first second begins => ?_
  have entered := enter part origin isChosen _ _ begins.libraries
  generalize first.library.enter _ = outcome at entered
  generalize second.library.enter _ = otherOutcome at entered
  -- Both libraries let the section in, or none does.
  cases entered with
  | error error => exact lockstep.pure (.error error)
  | ok entered =>
    refine lockstep.change (Workspace.Matched reports allowed (inner part))
      (fun _ _ known => ⟨known.modifiers, known.allowed, known.reports, entered⟩) ?_
    -- An included section starts out from its parent on each side, under the initial header.
    have begun : Draft.Matched moved contents ⟨.empty, forTerm term parent⟩
        ⟨.empty, forTerm term otherParent⟩ :=
      ⟨by simp [Header.move, Header.empty, initial], starts⟩
    refine lockstep.next (read part origin isChosen _ _ begun) fun made other same => ?_
    refine lockstep.change _ (fun _ _ known => ?_) (lockstep.pure (.ok same))
    exact ⟨known.modifiers, known.allowed, known.reports, leave part _ _ known.libraries⟩

omit [SectionContents γ] in
theorem rel_mono {known weaker : γ → γ → Prop} {first second : Option γ}
    (related : Option.Rel known first second)
    (less : ∀ left right, known left right → weaker left right) :
    Option.Rel weaker first second := by
  cases related with
  | none => exact .none
  | some made => exact .some (less _ _ made)

/-- Two drafts of an including section, or two that got errors before anything of it was added. -/
def Draft.Hosted (moved : Origin → Origin) (guests hosts : γ → γ → Prop) (left right : Draft γ) :
    Prop :=
  Draft.Matched moved hosts left right ∨ Draft.Matched moved guests left right ∧ left.isClean = false

namespace Draft.Hosted

variable {guests hosts : γ → γ → Prop} {first second : Draft γ}
  (same : Draft.Hosted moved guests hosts first second)

include same

theorem isClean_eq : second.isClean = first.isClean :=
  same.elim (·.isClean_eq) (·.1.isClean_eq)

theorem addErrors (count : Nat) :
    Draft.Hosted moved guests hosts (first.addErrors count) (second.addErrors count) :=
  same.imp (·.addErrors count) fun known =>
    ⟨known.1.addErrors count, first.addErrors_dirty (.inl known.2)⟩

omit [SectionContents γ] in
theorem matched (settles : ∀ left right, guests left right → hosts left right) :
    Draft.Matched moved hosts first second :=
  same.elim id fun known => ⟨known.1.header, settles _ _ known.1.contents⟩

omit [SectionContents γ] in
theorem parents : hosts first.contents second.contents ∨ guests first.contents second.contents :=
  same.imp (·.contents) (·.1.contents)

variable (inclusive : Inclusive γ keycodes reports moved guests hosts)

include inclusive

theorem welcome (modifiers : VirtualModifiers) (mode : MergeMode) {new otherNew : Draft γ}
    (sameNew : Draft.Matched moved guests new otherNew) :
    Alike reports (Draft.absorb ⟨modifiers, keycodes⟩ mode new first)
      (Draft.absorb ⟨modifiers, keycodes⟩ mode otherNew second)
      (Draft.Hosted moved guests hosts) := by
  rcases same with sameOld | ⟨sameOld, dirty⟩
  · refine (Draft.absorb_alike inclusive.welcome modifiers mode sameNew sameOld).mono ?_
    exact fun _ _ known => .inl (known.elim And.right And.right)
  · -- Errors stay, whatever is added.
    refine ((Draft.absorb_alike inclusive.meet modifiers mode sameNew sameOld).gives
      (Draft.absorb_dirty ⟨modifiers, keycodes⟩ mode (.inr dirty))).mono ?_
    exact fun _ _ known => .inr ⟨known.1.elim And.right And.right, known.2⟩

theorem visit (visits : AbsorbsAlike γ keycodes reports moved hosts guests hosts)
    (modifiers : VirtualModifiers) (mode : MergeMode) {old otherOld : Draft γ}
    (sameOld : Draft.Matched moved guests old otherOld) :
    Alike reports (Draft.absorb ⟨modifiers, keycodes⟩ mode first old)
      (Draft.absorb ⟨modifiers, keycodes⟩ mode second otherOld)
      (Draft.Hosted moved guests hosts) := by
  rcases same with sameNew | ⟨sameNew, dirty⟩
  · have stays : Gives (Draft.absorb ⟨modifiers, keycodes⟩ mode first old) fun made =>
        first.isClean = false → made.isClean = false :=
      fun diagnostics dirty => Draft.absorb_dirty _ mode (.inl dirty) diagnostics
    refine ((Draft.absorb_alike visits modifiers mode sameNew sameOld).gives stays).mono ?_
    · rintro made other ⟨⟨_, known⟩ | ⟨dirty, known⟩, stays⟩
      · exact .inl known
      · exact .inr ⟨known, stays dirty⟩
  · refine ((Draft.absorb_alike inclusive.meet modifiers mode sameNew sameOld).gives
      (Draft.absorb_dirty ⟨modifiers, keycodes⟩ mode (.inl dirty))).mono ?_
    exact fun _ _ known => .inr ⟨known.1.elim And.right And.right, known.2⟩

theorem builtin (term : IncludeTerm) :
    Option.Rel (fun made other => Draft.Hosted moved guests hosts
        { first with contents := made } { second with contents := other })
      (builtin term first.contents) (builtin term second.contents) := by
  rcases same with known | ⟨known, dirty⟩
  · exact rel_mono (inclusive.builtinHost term _ _ known.contents) fun _ _ made =>
      .inl (known.withContents made)
  · exact rel_mono (inclusive.builtinGuest term _ _ known.contents) fun _ _ made =>
      .inr ⟨known.withContents made, dirty⟩

end Draft.Hosted

/-- Two include statements halfway: the including section is kept apart from what was included, or
was added to it. -/
inductive Inclusion.Matched (moved : Origin → Origin) (guests hosts : γ → γ → Prop) :
    Inclusion γ → Inclusion γ → Prop where
  | apart {own otherOwn made otherMade : Draft γ}
      (sameOwn : Draft.Hosted moved guests hosts own otherOwn)
      (sameMade : Draft.Matched moved guests made otherMade) :
      Matched moved guests hosts ⟨own, made, false⟩ ⟨otherOwn, otherMade, false⟩
  | joined {own otherOwn made otherMade : Draft γ}
      (sameOwn : Draft.Matched moved guests own otherOwn)
      (sameMade : Draft.Hosted moved guests hosts made otherMade) :
      Matched moved guests hosts ⟨own, made, true⟩ ⟨otherOwn, otherMade, true⟩

/-- The sections that terms name are read alike. -/
def TermsAlike (lockstep : Lockstep m n) (states : Workspace → Workspace → Prop)
    (moved : Origin → Origin) (guests hosts : γ → γ → Prop) (left : SectionReader m γ)
    (right : SectionReader n γ) (terms : List IncludeTerm) : Prop :=
  ∀ term ∈ terms, term.isSelf = false → ∀ parent otherParent,
    hosts parent otherParent ∨ guests parent otherParent →
      lockstep.alike states (readTerm left parent term) (readTerm right otherParent term)
        (MatchedOutcome (Draft.Matched moved guests))

theorem Draft.matched_empty {guests hosts : γ → γ → Prop}
    (inclusive : Inclusive γ keycodes reports moved guests hosts) :
    Draft.Matched moved guests (Draft.empty : Draft γ) Draft.empty :=
  ⟨by simp [Draft.empty, Header.move, Header.empty, inclusive.initial], inclusive.empty⟩

theorem absorbing_alike {α β : Type} {values : α → β → Prop} {mades : Draft γ → Draft γ → Prop}
    (mode : MergeMode) {new otherNew old otherOld : Draft γ}
    (absorbed : ∀ modifiers, Alike reports (Draft.absorb ⟨modifiers, keycodes⟩ mode new old)
      (Draft.absorb ⟨modifiers, keycodes⟩ mode otherNew otherOld) mades)
    {leftNext : Draft γ → ReadingT m α} {rightNext : Draft γ → ReadingT n β}
    (rest : ∀ made other, mades made other →
      lockstep.alike (Workspace.Matched reports allowed libraries) (leftNext made) (rightNext other)
        values) :
    lockstep.alike (Workspace.Matched reports allowed libraries)
      (Reading.scope keycodes >>= fun scope =>
        Reading.report (Draft.absorb scope mode new old) >>= leftNext)
      (Reading.scope keycodes >>= fun scope =>
        Reading.report (Draft.absorb scope mode otherNew otherOld) >>= rightNext) values := by
  refine lockstep.next (lockstep.scope keycodes) ?_
  rintro _ _ ⟨modifiers, rfl, rfl⟩
  exact lockstep.next (lockstep.report (absorbed modifiers)) rest

section Including

variable {guests hosts : γ → γ → Prop}
  (inclusive : Inclusive γ keycodes reports moved guests hosts)

include inclusive

variable {terms : List IncludeTerm}

theorem addTerm_alike {term : IncludeTerm}
    (alike : TermsAlike lockstep (Workspace.Matched reports allowed libraries) moved guests hosts
      left right terms)
    (visits : ∀ term ∈ terms, term.isSelf = true →
      AbsorbsAlike γ keycodes reports moved hosts guests hosts) (member : term ∈ terms)
    {first second : Inclusion γ} (same : Inclusion.Matched moved guests hosts first second) :
    lockstep.alike (Workspace.Matched reports allowed libraries) (first.addTerm keycodes left term)
      (second.addTerm keycodes right term)
      (MatchedOutcome (Inclusion.Matched moved guests hosts)) := by
  have empty := Draft.matched_empty inclusive
  simp only [Inclusion.addTerm]
  cases self : term.isSelf with
  | true =>
    -- The section itself is added, and is not to be added again at the end.
    cases same with
    | apart sameOwn sameMade =>
      refine absorbing_alike _ (fun modifiers => sameOwn.visit inclusive (visits term member self) modifiers _ sameMade)
        fun made other known => ?_
      exact lockstep.pure (.ok (.joined empty known))
    | joined sameOwn sameMade =>
      refine absorbing_alike _ (fun modifiers => sameMade.welcome inclusive modifiers _ sameOwn)
        fun made other known => ?_
      exact lockstep.pure (.ok (.joined empty known))
  | false =>
    cases same with
    | @apart own otherOwn made otherMade sameOwn sameMade =>
      dsimp only
      have built := inclusive.builtinGuest term _ _ sameMade.contents
      generalize builtin term made.contents = found at built
      generalize builtin term otherMade.contents = otherFound at built
      cases built with
      | some known => exact lockstep.pure (.ok (.apart sameOwn (sameMade.withContents known)))
      | none =>
        refine lockstep.next (alike term member self _ _ sameOwn.parents) fun outcome other known => ?_
        cases known with
        | error error => exact lockstep.pure (.error error)
        | ok known =>
          refine absorbing_alike _ (fun modifiers =>
            Draft.absorb_alike inclusive.meet modifiers _ known sameMade) fun made other known => ?_
          exact lockstep.pure (.ok (.apart sameOwn (known.elim And.right And.right)))
    | @joined own otherOwn made otherMade sameOwn sameMade =>
      dsimp only
      have built := sameMade.builtin inclusive term
      generalize builtin term made.contents = found at built
      generalize builtin term otherMade.contents = otherFound at built
      cases built with
      | some known => exact lockstep.pure (.ok (.joined sameOwn known))
      | none =>
        refine lockstep.next (alike term member self _ _ (.inr sameOwn.contents))
          fun outcome other known => ?_
        cases known with
        | error error => exact lockstep.pure (.error error)
        | ok known =>
          refine absorbing_alike _ (fun modifiers =>
            sameMade.welcome inclusive modifiers _ known) fun made other known => ?_
          exact lockstep.pure (.ok (.joined sameOwn known))

omit inclusive in
theorem failInclusion_alike (lenient : Lenient reports) {own otherOwn : Draft γ}
    (same : Draft.Hosted moved guests hosts own otherOwn ∨
      Draft.Matched moved guests own otherOwn) (included : IncludeStatement)
    (error : IncludeError) :
    lockstep.alike (Workspace.Matched reports allowed libraries)
      (failInclusion own included error) (failInclusion otherOwn included error)
      fun made other => Draft.Hosted moved guests hosts made.1 other.1 ∧ made.2 = other.2 := by
  refine lockstep.next (lockstep.report (lenient.error _ _)) fun _ _ _ => ?_
  refine lockstep.pure ⟨?_, rfl⟩
  rcases same with known | known
  · exact known.addErrors _
  · exact .inr ⟨known.addErrors _, own.addErrors_dirty (.inr (by decide))⟩

theorem finish_alike (lenient : Lenient reports) (included : IncludeStatement) (mode : MergeMode)
    (alike : TermsAlike lockstep (Workspace.Matched reports allowed libraries) moved guests hosts
      left right terms)
    (visits : ∀ term ∈ terms, term.isSelf = true →
      AbsorbsAlike γ keycodes reports moved hosts guests hosts) {first second : Inclusion γ}
    (same : Inclusion.Matched moved guests hosts first second) :
    lockstep.alike (Workspace.Matched reports allowed libraries)
      (first.finish keycodes left included mode terms)
      (second.finish keycodes right included mode terms)
      fun made other => Draft.Hosted moved guests hosts made.1 other.1 ∧ made.2 = other.2 := by
  induction terms generalizing first second with
  | nil =>
    simp only [Inclusion.finish]
    -- The section itself is kept apart on both sides or was a term on both.
    cases same with
    | apart sameOwn sameMade =>
      refine absorbing_alike mode (fun modifiers =>
        sameOwn.welcome inclusive modifiers mode sameMade) fun made other known => ?_
      exact lockstep.pure ⟨known, known.isClean_eq.symm⟩
    | joined sameOwn sameMade =>
      exact lockstep.next (lockstep.pure sameMade) fun made other known =>
        lockstep.pure ⟨known, known.isClean_eq.symm⟩
  | cons term rest ih =>
    simp only [Inclusion.finish]
    refine lockstep.next (addTerm_alike inclusive alike visits (by simp) same) fun outcome other known => ?_
    cases known with
    | error error =>
      refine failInclusion_alike lenient ?_ included error
      cases same with
      | apart sameOwn _ => exact .inl sameOwn
      | joined sameOwn _ => exact .inr sameOwn
    | ok known =>
      exact ih (fun term member => alike term (by simp [member]))
        (fun term member => visits term (by simp [member])) known

/-- An include statement. -/
theorem followInclude_hosted (lenient : Lenient reports) {included : IncludeStatement}
    (alike : TermsAlike lockstep (Workspace.Matched reports allowed libraries) moved guests hosts
      left right included.terms)
    (visits : ∀ term ∈ included.terms.tail, term.isSelf = true →
      AbsorbsAlike γ keycodes reports moved hosts guests hosts)
    {own otherOwn : Draft γ} (same : Draft.Matched moved hosts own otherOwn) :
    lockstep.alike (Workspace.Matched reports allowed libraries)
      (followInclude keycodes left own included) (followInclude keycodes right otherOwn included)
      fun made other => Draft.Hosted moved guests hosts made.1 other.1 ∧ made.2 = other.2 := by
  simp only [followInclude]
  rcases included with ⟨merge, text, _ | ⟨first, rest⟩⟩
  · exact lockstep.pure ⟨.inl same, same.isClean_eq.symm⟩
  dsimp only
  -- The further terms are left out after one with errors, on both sides.
  have finishes (state other : Inclusion γ) (sameClean : other.made.isClean = state.made.isClean)
      (known : Inclusion.Matched moved guests hosts state other) :
      lockstep.alike (Workspace.Matched reports allowed libraries)
        (state.finish keycodes left ⟨merge, text, first :: rest⟩ (first.merge.or merge)
          (if state.made.isClean then rest else []))
        (other.finish keycodes right ⟨merge, text, first :: rest⟩ (first.merge.or merge)
          (if other.made.isClean then rest else []))
        fun made other => Draft.Hosted moved guests hosts made.1 other.1 ∧ made.2 = other.2 := by
    rw [sameClean]
    have among (term : IncludeTerm) (member : term ∈ if state.made.isClean then rest else []) :
        term ∈ rest := by
      split at member
      · exact member
      · cases member
    exact finish_alike inclusive lenient _ _
      (fun term member => alike term (List.mem_cons_of_mem first (among term member)))
      (fun term member => visits term (among term member)) known
  cases self : first.isSelf with
  | true =>
    exact finishes ⟨.empty, own, true⟩ ⟨.empty, otherOwn, true⟩ same.isClean_eq
      (.joined (Draft.matched_empty inclusive) (.inl same))
  | false =>
    have built := inclusive.builtinHost first _ _ same.contents
    generalize builtin first own.contents = found at built
    generalize builtin first otherOwn.contents = otherFound at built
    cases built with
    | some known => exact lockstep.pure ⟨.inl (same.withContents known), same.isClean_eq.symm⟩
    | none =>
      refine lockstep.next (alike first (by simp) self _ _ (.inl same.contents))
        fun outcome other known => ?_
      cases known with
      | error error => exact failInclusion_alike lenient (.inl (.inl same)) _ error
      | ok known =>
        exact finishes ⟨_, _, false⟩ ⟨_, _, false⟩ (known.rename _).isClean_eq
          (.apart (.inl same) (known.rename _))

end Including

section Statements

variable {guests hosts : γ → γ → Prop} (lenient : Lenient reports) (admits : Admits γ allowed)
  (inclusive : Inclusive γ keycodes reports moved guests hosts)
  (settles : ∀ left right, guests left right → hosts left right)

include lenient admits inclusive settles

theorem readStatement_alike (mode : MergeMode) {statement : Statement}
    (handles : HandlesAlike γ keycodes reports moved hosts statement)
    (alike : ∀ included, statement = .inclusion included →
      TermsAlike lockstep (Workspace.Matched reports allowed libraries) moved guests hosts left right
        included.terms)
    (visits : ∀ included, statement = .inclusion included → ∀ term ∈ included.terms.tail,
      term.isSelf = true → AbsorbsAlike γ keycodes reports moved hosts guests hosts)
    {draft other : Draft γ} (same : Draft.Matched moved hosts draft other) :
    lockstep.alike (Workspace.Matched reports allowed libraries)
      (readStatement keycodes left mode draft statement)
      (readStatement keycodes right mode other statement)
      fun made other => Draft.Matched moved hosts made.1 other.1 ∧ made.2 = other.2 := by
  simp only [readStatement]
  split
  · refine lockstep.mono (followInclude_hosted inclusive lenient (alike _ rfl) (visits _ rfl) same)
      (fun _ _ begins => begins) ?_
    exact fun _ _ _ _ known => ⟨⟨known.1.1.matched settles, known.1.2⟩, known.2⟩
  · rename_i declares
    refine lockstep.next (lockstep.declareModifier lenient admits declares _ _ _)
      fun right _ known => ?_
    exact lockstep.pure ⟨same, known⟩
  · refine lockstep.next (lockstep.scope keycodes) ?_
    rintro _ _ ⟨modifiers, rfl, rfl⟩
    -- The headers differ in where the section is from, which is what the statement may look at.
    have handled := handles modifiers draft.header mode _ _ same.contents
    rw [← same.header] at handled
    refine lockstep.next (lockstep.report handled) fun made other known => ?_
    exact lockstep.pure ⟨same.withContents known.1, known.2⟩

/-- The statements of a section. -/
theorem readStatements_alike (mode : MergeMode) (name : String) {statements : List Statement}
    (handles : ∀ statement ∈ statements, HandlesAlike γ keycodes reports moved hosts statement)
    (alike : ∀ included, .inclusion included ∈ statements →
      TermsAlike lockstep (Workspace.Matched reports allowed libraries) moved guests hosts left right
        included.terms)
    (visits : ∀ included, .inclusion included ∈ statements → ∀ term ∈ included.terms.tail,
      term.isSelf = true → AbsorbsAlike γ keycodes reports moved hosts guests hosts)
    {draft other : Draft γ} (same : Draft.Matched moved hosts draft other) :
    lockstep.alike (Workspace.Matched reports allowed libraries)
      (readStatements keycodes left mode name statements draft)
      (readStatements keycodes right mode name statements other)
      (Draft.Matched moved hosts) := by
  induction statements generalizing draft other with
  | nil => exact lockstep.pure same
  | cons statement rest ih =>
    simp only [readStatements]
    refine lockstep.next (readStatement_alike lenient admits inclusive settles mode
      (handles statement (by simp)) (fun included this => alike included (by simp [this]))
      (fun included this => visits included (by simp [this])) same) ?_
    rintro ⟨made, right⟩ ⟨otherMade, _⟩ ⟨known, rfl⟩
    -- An error is counted on both sides, and too many errors end both readings.
    have counted : Draft.Matched moved hosts (if right then made else made.addErrors 1)
        (if right then otherMade else otherMade.addErrors 1) := by
      split
      · exact known
      · exact known.addErrors 1
    dsimp only at counted ⊢
    generalize (if right = true then made else made.addErrors 1) = made at counted ⊢
    generalize (if right = true then otherMade else otherMade.addErrors 1) = otherMade at counted ⊢
    rw [counted.errors_eq]
    split
    · refine lockstep.next (lockstep.report (lenient.error _ _)) fun _ _ _ => ?_
      exact lockstep.pure counted
    · exact ih (fun statement member => handles statement (by simp [member]))
        (fun included member => alike included (by simp [member]))
        (fun included member => visits included (by simp [member])) counted

end Statements

variable (lockstep) in
theorem Uniform.readStatements_alike (uniform : Uniform γ keycodes reports moved contents)
    (lenient : Lenient reports) (admits : Admits γ allowed) (mode : MergeMode) (name : String)
    {statements : List Statement}
    (alike : ∀ included, .inclusion included ∈ statements →
      TermsAlike lockstep (Workspace.Matched reports allowed libraries) moved contents contents left
        right included.terms)
    {draft other : Draft γ} (same : Draft.Matched moved contents draft other) :
    lockstep.alike (Workspace.Matched reports allowed libraries)
      (readStatements keycodes left mode name statements draft)
      (readStatements keycodes right mode name statements other) (Draft.Matched moved contents) :=
  Xkb.readStatements_alike lenient admits uniform.inclusive (fun _ _ => id) mode name
    (fun statement _ => uniform.handle statement) alike (fun _ _ _ _ _ => uniform.absorb) same

theorem Library.find_alike (lenient : Lenient reports) (library : Library) (kind : SectionKind)
    (file : String) (map : Option String) :
    Alike reports (library.find kind file map) (library.find kind file map)
      fun found other => found.1 = other.1 ∧ found.2 = other.2 ∧
        ∀ part origin, found.1 = .ok (part, origin) → ∃ position, origin = .included file position := by
  simp only [Library.find]
  cases library.load kind file with
  | error error =>
    refine .pure ⟨rfl, rfl, fun part origin found => ?_⟩
    cases found
  | ok loaded =>
    have picked := (lenient.pick loaded.1 kind file map).gives
      (Library.pick_position loaded.1 kind file map)
    refine .bind picked fun found other known => ?_
    refine .pure ⟨known.1, rfl, fun part origin same => ?_⟩
    obtain ⟨position, included, -⟩ := known.2 part origin same
    exact ⟨position, included⟩

/-- The section that a term names is read alike with the same library, if sections from files are. -/
theorem readTerm_shared {left right : SectionReader Id γ} (lenient : Lenient reports)
    (initial : moved .initial = .initial)
    (read : ∀ part position draft other, Draft.Matched moved contents draft other →
      Alike (Workspace.Matched reports allowed Eq)
        (left part (.included (term.file.getD "") position) draft)
        (right part (.included (term.file.getD "") position) other) (Draft.Matched moved contents))
    {parent otherParent : γ}
    (starts : contents (forTerm term parent) (forTerm term otherParent)) :
    Alike (Workspace.Matched reports allowed Eq) (readTerm left parent term)
      (readTerm right otherParent term) (MatchedOutcome (Draft.Matched moved contents)) := by
  refine readTerm_alike plainly initial (fun _ => Eq)
    (fun _ origin => ∃ position, origin = .included (term.file.getD "") position)
    ?find ?enter ?leave ?read starts
  case find =>
    intro library other same
    subst same
    exact library.find_alike lenient _ _ _
  case enter =>
    intro part origin _ library other same
    subst same
    cases library.enter _ with
    | error error => exact .error error
    | ok entered => exact .ok rfl
  case leave =>
    intro part library other same
    subst same
    rfl
  case read =>
    intro part origin ⟨position, known⟩ draft other same
    subst known
    exact read part position draft other same

/-- A section is read alike with the same library, wherever it is from. -/
theorem readSection_alike (lenient : Lenient reports) (admits : Admits γ allowed)
    (uniform : Uniform γ keycodes reports moved contents) (limit : Nat) (mode : MergeMode)
    (part : Section) (origin : Origin) {draft other : Draft γ}
    (same : Draft.Matched moved contents draft other) :
    Alike (Workspace.Matched reports allowed Eq)
      (readSection keycodes limit mode part origin draft : Reading _)
      (readSection keycodes limit mode part (moved origin) other)
      (Draft.Matched moved contents) := by
  induction limit generalizing mode part origin draft other with
  | zero => exact .pure same
  | succ limit ih =>
    refine uniform.readStatements_alike plainly lenient admits _ _ (fun included _ => ?_)
      (same.begin _ _)
    intro term member _ parent otherParent parents
    refine readTerm_shared lenient uniform.initial (fun part position draft other same => ?_)
      (uniform.forTerm _ _ _ (or_self_iff.mp parents))
    -- What is included is from a file on both sides, so moving the section leaves it there.
    have read := ih .override part (.included (term.file.getD "") position) same
    rwa [uniform.included] at read

end Sections

end Xkb
