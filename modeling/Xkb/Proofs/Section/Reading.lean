import Xkb.Proofs.Section.Agreement

/-! Reading sections keeps to what their library holds: what statements, terms and includes keep,
reading a whole section keeps. -/

namespace Xkb

open SectionContents (absorb builtin forTerm)

/-- The workspaces whose library offers certain texts and follows certain includes. -/
def AtStack (texts : Library) (stack : List Frame) (workspace : Workspace) : Prop :=
  texts.Extends workspace.library ∧ workspace.library.stack = stack

/-- The same library on both sides, which offers certain texts and follows certain includes. -/
def Library.SameAt (texts : Library) (stack : List Frame) (left right : Library) : Prop :=
  left = right ∧ texts.Extends left ∧ left.stack = stack

/-- The same workspace on both sides, whose library offers certain texts and follows certain
includes. -/
abbrev Both (texts : Library) (stack : List Frame) : Workspace → Workspace → Prop :=
  Workspace.Matched Eq (fun _ => True) (texts.SameAt stack)

variable {texts : Library} {stack : List Frame}

theorem AtStack.both {workspace : Workspace} (known : AtStack texts stack workspace) :
    Both texts stack workspace workspace :=
  ⟨rfl, trivial, rfl, rfl, known⟩

theorem Both.leads {α : Type} {run : Reading α} {values : α → α → Prop}
    (alike : plainly.alike (Both texts stack) run run values) :
    Leads (AtStack texts stack) run fun _ => AtStack texts stack :=
  fun _ begins => (alike _ _ begins.both).2.libraries.2

/-- The same contents on both sides, with a property. -/
def Same {γ : Type} (holds : γ → Prop) (left right : γ) : Prop :=
  left = right ∧ holds left

/-- What reading keeps of the contents of sections: every way to come to other contents keeps it,
at least for certain statements. -/
structure Maintains (γ : Type) [SectionContents γ] (supplied : Statement → Prop)
    (holds : γ → Prop) : Prop where
  empty : holds SectionContents.empty
  forTerm : ∀ term parent, holds parent → holds (forTerm term parent)
  builtin : ∀ term contents made, holds contents →
    builtin term contents = some made → holds made
  handle : ∀ scope header mode statement contents, supplied statement → holds contents →
    Gives (SectionContents.handle scope header mode statement contents) fun made => holds made.1
  absorb : ∀ scope mode header new old, holds new → holds old →
    Gives (absorb scope mode header new old) fun made => holds made.1

section Sections

variable {γ : Type} [SectionContents γ] {supplied : Statement → Prop} {holds guest host : γ → Prop}
  {keycodes : KeycodeTable}

theorem maintains_true : Maintains γ (fun _ => True) fun _ => True :=
  ⟨trivial, by simp, by simp, fun _ _ _ _ _ _ _ => .trivial _,
    fun _ _ _ _ _ _ _ => .trivial _⟩

omit [SectionContents γ] in
theorem Draft.matched_same {draft : Draft γ} (known : holds draft.contents) :
    Draft.Matched id (Same holds) draft draft :=
  ⟨rfl, rfl, known⟩

theorem builtin_same
    (keeps : ∀ term contents made, holds contents →
      builtin term contents = some made → holds made)
    (term : IncludeTerm) (left right : γ) (same : Same holds left right) :
    Option.Rel (Same holds) (builtin term left)
      (builtin term right) := by
  obtain ⟨rfl, known⟩ := same
  cases built : builtin term left with
  | none => exact .none
  | some made => exact .some ⟨rfl, keeps term left made known built⟩

theorem AbsorbsAlike.same
    (keeps : ∀ scope mode header new old, guest new → host old →
      Gives (absorb scope mode header new old) fun made => holds made.1) :
    AbsorbsAlike γ keycodes Eq id (Same guest) (Same host) (Same holds) := by
  rintro modifiers mode header new _ old _ ⟨rfl, newKnown⟩ ⟨rfl, oldKnown⟩
  refine ((Alike.refl _).gives (keeps ⟨modifiers, keycodes⟩ mode header new old newKnown
    oldKnown)).mono ?_
  rintro made _ ⟨rfl, known⟩
  exact ⟨⟨rfl, known⟩, rfl⟩

theorem HandlesAlike.same {statement : Statement}
    (keeps : ∀ scope header mode contents, holds contents →
      Gives (SectionContents.handle scope header mode statement contents) fun made => holds made.1) :
    HandlesAlike γ keycodes Eq id (Same holds) statement := by
  rintro modifiers header mode contents _ ⟨rfl, known⟩
  refine ((Alike.refl _).gives (keeps ⟨modifiers, keycodes⟩ header mode contents known)).mono ?_
  rintro made _ ⟨rfl, kept⟩
  exact ⟨⟨rfl, kept⟩, rfl⟩

theorem Maintains.inclusive (maintains : Maintains γ supplied holds) (keycodes : KeycodeTable) :
    Inclusive γ keycodes Eq id (Same holds) (Same holds) :=
  ⟨rfl, ⟨rfl, maintains.empty⟩, builtin_same maintains.builtin, builtin_same maintains.builtin,
    .same maintains.absorb, .same maintains.absorb⟩

section Terms

variable {m n : Type → Type} [Monad m] [Monad n] {lockstep : Lockstep m n} {texts : Library}
  {stack : List Frame} {left : SectionReader m γ} {right : SectionReader n γ} {term : IncludeTerm}

/-- Readers that keep in step wherever a section is entered that is offered for a term. -/
def Within (lockstep : Lockstep m n) (texts : Library) (stack : List Frame) (holds : γ → Prop)
    (left : SectionReader m γ) (right : SectionReader n γ) (term : IncludeTerm) : Prop :=
  ∀ part, texts.Offers (SectionContents.kind γ) (term.file.getD "") term.map part →
    ⟨term.file.getD "", part.name, SectionContents.kind γ⟩ ∉ stack →
    ∀ origin draft, holds draft.contents →
      lockstep.alike
        (Both texts (⟨term.file.getD "", part.name, SectionContents.kind γ⟩ :: stack))
        (left part origin draft) (right part origin draft) (Draft.Matched id (Same holds))

/-- A term is entered and left. -/
theorem Within.readTerm (within : Within lockstep texts stack holds left right term) {parent : γ}
    (starts : holds (forTerm term parent)) :
    lockstep.alike (Both texts stack) (readTerm left parent term) (readTerm right parent term)
      (MatchedOutcome (Draft.Matched id (Same holds))) := by
  let frame (part : Section) : Frame := ⟨term.file.getD "", part.name, SectionContents.kind γ⟩
  refine readTerm_alike lockstep rfl
    (fun part first second => texts.SameAt (frame part :: stack) first second ∧ frame part ∉ stack)
    (fun part _ => texts.Offers (SectionContents.kind γ) (term.file.getD "") term.map part)
    ?find ?enter ?leave ?read ⟨rfl, starts⟩
  case find =>
    rintro library _ ⟨rfl, extended, sameStack⟩
    refine ((Alike.refl _).gives (extended.find _ _ _)).mono ?_
    rintro found _ ⟨rfl, stays, kept, offered⟩
    exact ⟨rfl, ⟨rfl, stays, kept.trans sameStack⟩, offered⟩
  case enter =>
    rintro part _ _ library _ ⟨rfl, extended, sameStack⟩
    cases entered : library.enter (frame part) with
    | error error => exact .error error
    | ok inside =>
      obtain ⟨fresh, stays, pushed⟩ := extended.enter entered
      rw [sameStack] at fresh pushed
      exact .ok ⟨⟨rfl, stays, pushed⟩, fresh⟩
  case leave =>
    rintro part library _ ⟨⟨rfl, extended, sameStack⟩, -⟩
    exact ⟨rfl, extended.leave, by simp [Library.leave, sameStack]⟩
  case read =>
    rintro part origin offered draft other ⟨sameHeader, sameContents, known⟩
    obtain rfl : draft = other := Draft.Matched.eq ⟨sameHeader, sameContents⟩
    -- An include that is let in was not being followed.
    refine lockstep.assume fun _ _ begins => lockstep.mono
      (within part offered begins.libraries.2 origin draft known) ?_ ?_
    · exact fun _ _ inside => ⟨inside.modifiers, trivial, inside.reports, inside.libraries.1⟩
    · exact fun _ _ _ _ ends => ⟨ends.1, ends.2.modifiers, trivial, ends.2.reports, ends.2.libraries,
        begins.libraries.2⟩

theorem Within.terms (forTerm : ∀ term parent, host parent → guest (forTerm term parent))
    (settles : ∀ contents, guest contents → host contents) {terms : List IncludeTerm}
    (within : ∀ term ∈ terms, term.isSelf = false → Within lockstep texts stack guest left right term) :
    TermsAlike lockstep (Both texts stack) id (Same guest) (Same host) left right terms := by
  intro term member notSelf parent otherParent parents
  obtain ⟨rfl, known⟩ : Same host parent otherParent :=
    parents.elim id fun same => ⟨same.1, settles _ same.2⟩
  exact (within term member notSelf).readTerm (forTerm term parent known)

/-- The statements of a section. -/
theorem Maintains.readStatements (maintains : Maintains γ supplied holds) (keycodes : KeycodeTable)
    (mode : MergeMode) (name : String) {statements : List Statement}
    (known : ∀ statement ∈ statements, supplied statement)
    (within : ∀ included, .inclusion included ∈ statements → ∀ term ∈ included.terms,
      term.isSelf = false → Within lockstep texts stack holds left right term)
    {draft : Draft γ} (begun : holds draft.contents) :
    lockstep.alike (Both texts stack) (readStatements keycodes left mode name statements draft)
      (readStatements keycodes right mode name statements draft) (Draft.Matched id (Same holds)) :=
  readStatements_alike Lenient.refl (Admits.anything γ) (maintains.inclusive keycodes)
    (fun _ _ => id) mode name
    (fun statement member => .same fun scope header mode contents =>
      maintains.handle scope header mode statement contents (known statement member))
    (fun included stands => Within.terms maintains.forTerm (fun _ => id) (within included stands))
    (fun _ _ _ _ _ => .same maintains.absorb) (Draft.matched_same begun)

end Terms

/-- A section keeps what the statements that it leads to keep. -/
theorem readSection_keeps (maintains : Maintains γ supplied holds) (texts : Library)
    (keycodes : KeycodeTable) (limit : Nat) (mode : MergeMode) {part : Section}
    (known : ∀ statement, texts.Contributes (SectionContents.kind γ) part statement →
      supplied statement) (origin : Origin)
    (draft : Draft γ) (draftHolds : holds draft.contents) (stack : List Frame) :
    plainly.alike (Both texts stack) (readSection keycodes limit mode part origin draft)
      (readSection keycodes limit mode part origin draft) (Draft.Matched id (Same holds)) := by
  induction limit generalizing mode part origin draft stack with
  | zero => exact plainly.pure (Draft.matched_same draftHolds)
  | succ limit ih =>
    refine maintains.readStatements keycodes _ part.name
      (fun statement member => known statement (.own member)) ?_ draftHolds
    -- What an included section leads to the section leads to as well.
    intro included stands term member notSelf found offered _ origin draft starts
    refine ih .override (fun statement further => known statement ?_) origin draft starts _
    exact .through stands member notSelf offered further

end Sections

end Xkb
