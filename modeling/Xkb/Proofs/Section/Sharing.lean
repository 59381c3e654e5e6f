import Xkb.Proofs.Targets

/-! Two readings of the same texts go alike, whatever was parsed before, as long as neither runs out
of depth and both can enter the same sections. -/

namespace Xkb

namespace Library

/-- Two libraries with the same texts, each in the midst of includes of its own. -/
structure Sharing (texts : Library) (stack other : List Frame) (left right : Library) : Prop where
  leftTexts : texts.Extends left
  rightTexts : texts.Extends right
  leftStack : left.stack = stack
  rightStack : right.stack = other
  distinct : stack.Nodup

/-- Sections from which terms lead to such sections only, by includes of a list. -/
def Explored (texts : Library) (kind : SectionKind) (frames : List Frame)
    (visited : Section → Prop) : Prop :=
  ∀ part, visited part → ∀ term ∈ sectionTerms part, term.isSelf = false → ∀ found origin,
    texts.target kind term = .ok (found, origin) →
      visited found ∧ frameTo kind term found ∈ frames

namespace Sharing

variable {texts left right : Library} {stack other : List Frame} {frame : Frame}

theorem enter (sharing : Sharing texts stack other left right)
    (agrees : frame ∈ stack ↔ frame ∈ other) :
    MatchedOutcome (Sharing texts (frame :: stack) (frame :: other)) (left.enter frame)
      (right.enter frame) := by
  simp only [Library.enter, sharing.leftStack, sharing.rightStack]
  by_cases followed : frame ∈ stack
  · -- The include is being followed in both.
    rw [if_pos (by simpa using followed), if_pos (by simpa using agrees.mp followed)]
    exact .error _
  · -- The include is entered by both, on top of what each of them follows.
    have otherwise : frame ∉ other := fun member => followed (agrees.mpr member)
    rw [if_neg (by simpa using followed), if_neg (by simpa using otherwise)]
    refine .ok ⟨?_, ?_, rfl, rfl, List.nodup_cons.mpr ⟨followed, sharing.distinct⟩⟩
    · obtain ⟨roots, files, sources, parsed⟩ := sharing.leftTexts
      exact ⟨roots, files, sources, parsed⟩
    · obtain ⟨roots, files, sources, parsed⟩ := sharing.rightTexts
      exact ⟨roots, files, sources, parsed⟩

theorem leave (sharing : Sharing texts (frame :: stack) (frame :: other) left right) :
    Sharing texts stack other left.leave right.leave :=
  ⟨sharing.leftTexts.leave, sharing.rightTexts.leave, by simp [Library.leave, sharing.leftStack],
    by simp [Library.leave, sharing.rightStack], (List.nodup_cons.mp sharing.distinct).2⟩

end Sharing

end Library

open Library

section Sections

variable {γ : Type} [SectionContents γ] {keycodes : KeycodeTable}
  {reports : Diagnostics → Diagnostics → Prop} {moved : Origin → Origin}
  {contents : γ → γ → Prop} {allowed : VirtualModifiers → Prop} {texts : Library}
  {frames : List Frame} {visited : Section → Prop}

/-- A section is read alike from two libraries with the same texts, if the depth that is left is
more than the includes that are not yet followed, and none of the further includes of the second
library is ever come to. -/
theorem readSection_sharing (lenient : Lenient reports) (admits : Admits γ allowed)
    (uniform : Uniform γ keycodes reports moved contents) (unparsed : texts.parsed = [])
    (explored : texts.Explored (SectionContents.kind γ) frames visited)
    (tail : List Frame) (apart : ∀ frame ∈ frames, frame ∉ tail) (limit otherLimit : Nat)
    (stack : List Frame) (within : stack ⊆ frames) (enough : frames.length < limit + stack.length)
    (otherEnough : frames.length < otherLimit + stack.length) (mode : MergeMode)
    {part : Section} (known : visited part) (origin : Origin) {draft other : Draft γ}
    (same : Draft.Matched moved contents draft other) :
    Alike (Workspace.Matched reports allowed (Sharing texts stack (stack ++ tail)))
      (readSection keycodes limit mode part origin draft : Reading _)
      (readSection keycodes otherLimit mode part (moved origin) other)
      (Draft.Matched moved contents) := by
  -- With every include that is entered both limits fall by one and both stacks grow by one.
  induction limit generalizing otherLimit stack mode part origin draft other with
  | zero =>
    refine .assume (fun _ _ begins => begins.libraries.distinct) fun distinct => ?_
    -- A limit of zero leaves no room: the stack would hold more includes than there are.
    have few := distinct.length_le_of_subset within
    omega
  | succ limit ih =>
    refine .assume (fun _ _ begins => begins.libraries.distinct) fun distinct => ?_
    have few := distinct.length_le_of_subset within
    -- For the same reason the second limit is not zero either.
    obtain ⟨otherLimit, rfl⟩ : ∃ smaller, otherLimit = smaller + 1 := ⟨otherLimit - 1, by omega⟩
    refine uniform.readStatements_alike plainly lenient admits _ _ (fun included stands => ?_)
      (same.begin _ _)
    intro term member notSelf parent otherParent parents
    have ownTerm := mem_sectionTerms.mpr ⟨included, stands, member⟩
    refine readTerm_alike plainly uniform.initial
      (fun found => Sharing texts (frameTo (SectionContents.kind γ) term found :: stack)
        (frameTo (SectionContents.kind γ) term found :: (stack ++ tail)))
      (fun found place => texts.target (SectionContents.kind γ) term = .ok (found, place))
      ?find ?enter ?leave ?read (uniform.forTerm _ _ _ (or_self_iff.mp parents))
    case find =>
      intro first second sharing
      refine .mono (sharing.leftTexts.find_alike lenient sharing.rightTexts unparsed _ term) ?_
      intro found otherFound ⟨sameFound, isTarget, ⟨left, sameStack⟩, right, otherStack⟩
      refine ⟨sameFound, ⟨left, right, ?_, ?_, sharing.distinct⟩, fun part place this => ?_⟩
      · rw [sameStack, sharing.leftStack]
      · rw [otherStack, sharing.rightStack]
      · rw [← isTarget, this]
    case enter =>
      intro found place leads first second sharing
      -- What is come to is one of the frames, so it is not among the further includes.
      obtain ⟨-, reached⟩ := explored part known term ownTerm notSelf found place leads
      have free := apart _ reached
      exact sharing.enter (by simp [free])
    case leave =>
      intro found first second sharing
      exact sharing.leave
    case read =>
      intro found place leads draft other same
      obtain ⟨visits, reached⟩ := explored part known term ownTerm notSelf found place leads
      obtain ⟨sections, position, -, rfl, -⟩ := target_position leads
      have read := ih otherLimit (frameTo _ term found :: stack)
        (List.cons_subset.mpr ⟨reached, within⟩) (by rw [List.length_cons]; omega)
        (by rw [List.length_cons]; omega) .override visits
        (.included (term.file.getD "") position) same
      rw [uniform.included] at read
      exact read

end Sections

end Xkb
