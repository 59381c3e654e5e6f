import Xkb.Proofs.Section.CompatSettled

/-! Interpretations are tried class by class, and within a class in the order in which they were
defined first. -/

namespace Xkb

section Ranks

variable {α : Type} {rank : α → Nat} {count : Nat} {list : List α}

/-- The items of a list by their ranks below a bound, those of the least rank first. -/
def byRank (rank : α → Nat) (count : Nat) (list : List α) : List α :=
  (List.range count).flatMap fun place => list.filter (rank · = place)

theorem byRank_succ (rank : α → Nat) (count : Nat) (list : List α) :
    byRank rank (count + 1) list = byRank rank count list ++ list.filter (rank · = count) := by
  simp [byRank, List.range_succ]

theorem byRank_perm_filter (rank : α → Nat) (count : Nat) (list : List α) :
    (byRank rank count list).Perm (list.filter (rank · < count)) := by
  induction count with
  | zero => simp [byRank]
  | succ count ih =>
    rw [byRank_succ]
    -- Of the items below the next bound, those below this one are split off first.
    have below : (list.filter (rank · < count + 1)).filter (rank · < count)
        = list.filter (rank · < count) := by
      rw [List.filter_filter]
      refine List.filter_congr fun item _ => ?_
      by_cases less : rank item < count
      · simp [Nat.lt_succ_of_lt less]
      · simp [less]
    have top : (list.filter (rank · < count + 1)).filter (fun item => !decide (rank item < count))
        = list.filter (rank · = count) := by
      rw [List.filter_filter]
      refine List.filter_congr fun item _ => ?_
      rw [Bool.eq_iff_iff]
      simp only [Bool.and_eq_true, Bool.not_eq_true', decide_eq_false_iff_not, decide_eq_true_eq]
      omega
    calc byRank rank count list ++ list.filter (rank · = count)
        |>.Perm (list.filter (rank · < count) ++ list.filter (rank · = count)) := ih.append_right _
      _ |>.Perm (list.filter (rank · < count + 1)) := by
        rw [← below, ← top]
        exact List.filter_append_perm _ _

theorem byRank_perm (bounded : ∀ item ∈ list, rank item < count) :
    (byRank rank count list).Perm list := by
  have all : list.filter (rank · < count) = list :=
    List.filter_eq_self.mpr fun item member => decide_eq_true (bounded item member)
  have listed := byRank_perm_filter rank count list
  rwa [all] at listed

theorem byRank_sorted (rank : α → Nat) (count : Nat) (list : List α) :
    (byRank rank count list).Pairwise (rank · ≤ rank ·) := by
  induction count with
  | zero => simp [byRank]
  | succ count ih =>
    rw [byRank_succ, List.pairwise_append]
    refine ⟨ih, List.pairwise_filter.mpr (List.pairwise_of_forall ?_), ?_⟩
    · intro item other last otherLast
      have same : rank item = rank other :=
        (of_decide_eq_true last).trans (of_decide_eq_true otherLast).symm
      exact Nat.le_of_eq same
    · -- What was listed before is of a rank below the bound.
      intro item member other otherMember
      have listed := (byRank_perm_filter rank count list).mem_iff.mp member
      have less : rank item < count := of_decide_eq_true (List.mem_filter.mp listed).2
      have last : rank other = count := of_decide_eq_true (List.mem_filter.mp otherMember).2
      omega

theorem byRank_filter (bounded : ∀ item ∈ list, rank item < count) (place : Nat) :
    (byRank rank count list).filter (rank · = place) = list.filter (rank · = place) := by
  -- In the part for a rank either all items are of the rank in question or none is.
  have part (other : Nat) : (list.filter (rank · = other)).filter (rank · = place)
      = if other = place then list.filter (rank · = place) else [] := by
    rw [List.filter_filter]
    split
    · rename_i same
      subst same
      simp
    · rename_i apart
      refine List.filter_eq_nil_iff.mpr fun item _ => ?_
      simp only [Bool.and_eq_true, decide_eq_true_eq]
      omega
  have below (count : Nat) : (byRank rank count list).filter (rank · = place)
      = if place < count then list.filter (rank · = place) else [] := by
    induction count with
    | zero => simp [byRank]
    | succ count ih =>
      rw [byRank_succ, List.filter_append, ih, part]
      by_cases less : place < count
      · simp [less, Nat.lt_succ_of_lt less, show ¬count = place by omega]
      · by_cases last : count = place
        · simp [last]
        · simp [less, last, show ¬place < count + 1 by omega]
  rw [below]
  split
  · rfl
  · -- Beyond the bound there is nothing.
    rename_i beyond
    refine (List.filter_eq_nil_iff.mpr fun item member => ?_).symm
    have less := bounded item member
    simp only [decide_eq_true_eq]
    omega

theorem byRank_byRank (bounded : ∀ item ∈ list, rank item < count) :
    byRank rank count (byRank rank count list) = byRank rank count list := by
  simp only [byRank.eq_def rank count (byRank rank count list), byRank_filter bounded]
  rfl

theorem find?_byRank (bounded : ∀ item ∈ list, rank item < count) {accepts : α → Bool}
    {found : α} :
    (byRank rank count list).find? accepts = some found ↔
      (∀ other ∈ list, accepts other → rank found ≤ rank other) ∧
        list.find? (fun other => decide (rank other = rank found) && accepts other)
          = some found := by
  have members {item : α} : item ∈ byRank rank count list ↔ item ∈ list :=
    (byRank_perm bounded).mem_iff
  have forward {found : α} (located : (byRank rank count list).find? accepts = some found) :
      (∀ other ∈ list, accepts other → rank found ≤ rank other) ∧
        list.find? (fun other => decide (rank other = rank found) && accepts other)
          = some found := by
    constructor
    · intro other member otherAccepted
      rcases rel_of_find? (byRank_sorted rank count list) located (members.mpr member) otherAccepted
        with same | less
      · exact Nat.le_of_eq (congrArg rank same).symm
      · exact less
    · -- Among the items of its rank it is found first as well, and they keep their order.
      obtain ⟨accepted, before, after, split, refused⟩ := List.find?_eq_some_iff_append.mp located
      have within : list.find? (fun other => decide (rank other = rank found) && accepts other)
          = (list.filter (rank · = rank found)).find? accepts := by
        simp [List.find?_filter]
      rw [within, ← byRank_filter bounded, split, List.filter_append,
        List.filter_cons_of_pos (by simp), List.find?_append, List.find?_cons_of_pos accepted]
      have none : (before.filter (rank · = rank found)).find? accepts = none := by
        refine List.find?_eq_none.mpr fun other member => ?_
        simpa using refused other (List.mem_filter.mp member).1
      rw [none]
      rfl
  refine ⟨forward, fun ⟨least, first⟩ => ?_⟩
  -- Something is found, and it is the first one of the least rank as well.
  have known := List.find?_some first
  simp only [Bool.and_eq_true] at known
  have listed := members.mpr (List.mem_of_find?_eq_some first)
  obtain ⟨other, located⟩ := Option.isSome_iff_exists.mp
    (List.find?_isSome.mpr ⟨found, listed, known.2⟩)
  obtain ⟨otherLeast, otherFirst⟩ := forward located
  have otherKnown := List.find?_some otherFirst
  simp only [Bool.and_eq_true] at otherKnown
  have sameRank : rank other = rank found :=
    Nat.le_antisymm (otherLeast found (List.mem_of_find?_eq_some first) known.2)
      (least other (List.mem_of_find?_eq_some otherFirst) otherKnown.2)
  rw [sameRank, first] at otherFirst
  rw [located, otherFirst]

end Ranks

/-- How early a predicate is tried: the narrower it is, the earlier. -/
def Predicate.rank : Predicate → Nat
  | exactly => 0
  | allOf | noneOf => 1
  | anyOf => 2
  | anyOfOrNone => 3

namespace Interpretation

/-- The class of an interpretation: those for one keysym come before those for any, and each of
the two by the predicate. -/
def rank (interpretation : Interpretation) : Nat :=
  (if interpretation.sym = .noSymbol then 4 else 0) + interpretation.predicate.rank

/-- What an interpretation is for: a keysym and modifiers. -/
def key (interpretation : Interpretation) : Keysym × Predicate × UInt8 :=
  (interpretation.sym, interpretation.predicate, interpretation.mods)

theorem rank_lt (interpretation : Interpretation) : interpretation.rank < 8 := by
  have narrow : interpretation.predicate.rank < 4 := by
    cases interpretation.predicate <;> decide
  simp only [rank]
  split <;> omega

end Interpretation

namespace InterpretationDraft

/-- Adds interpretations one after the other to a list without any. -/
def addAll (drafts : List InterpretationDraft) : Report (List InterpretationDraft) :=
  drafts.foldlM (fun list new => new.add list) []

theorem ordered_eq_byRank (drafts : List InterpretationDraft) :
    ordered drafts = byRank Interpretation.rank 8 (drafts.map (·.interpretation)) := by
  -- Each pass picks one class: the keysym and the predicate say which.
  have pass (place : Nat) {forOne : Bool} {predicates : List Predicate}
      (same : ∀ predicate : Predicate, ∀ any : Bool,
        ((!any) == forOne && predicates.contains predicate)
          = decide ((if any then 4 else 0) + predicate.rank = place)) :
      ((drafts.map (·.interpretation)).filter fun interpretation =>
        (interpretation.sym != .noSymbol) == forOne && predicates.contains interpretation.predicate)
      = (drafts.map (·.interpretation)).filter (·.rank = place) := by
    refine List.filter_congr fun interpretation _ => ?_
    have here := same interpretation.predicate (interpretation.sym == .noSymbol)
    simp only [beq_iff_eq] at here
    exact here
  have range : List.range 8 = [0, 1, 2, 3, 4, 5, 6, 7] := rfl
  simp only [ordered, predicateOrder, byRank, range, List.flatMap_cons, List.flatMap_nil,
    List.append_nil, List.append_assoc]
  rw [pass 0, pass 1, pass 2, pass 3,
    pass 4, pass 5, pass 6, pass 7]
  all_goals
    intro predicate any
    cases predicate <;> cases any <;> rfl

/-- The list has one interpretation for each key, in the order in which the keys came up. -/
theorem addAll_keys (drafts : List InterpretationDraft) :
    Gives (addAll drafts) fun reached => reached.map key = (drafts.map key).eraseDups := by
  -- The drafts that are done stay in front of those that are left.
  have onward (rest : List InterpretationDraft) : ∀ done held : List InterpretationDraft,
      held.map key = (done.map key).eraseDups →
      Gives (rest.foldlM (fun list new => new.add list) held) fun reached =>
        reached.map key = ((done ++ rest).map key).eraseDups := by
    induction rest with
    | nil =>
      intro done held known
      rw [List.append_nil]
      exact .pure known
    | cons new rest ih =>
      intro done held known
      rw [List.foldlM_cons]
      refine .bind (new.adds.keys held) fun made keys => ?_
      rw [← List.singleton_append, ← List.append_assoc]
      refine ih (done ++ [new]) made ?_
      -- A key that came up before is dropped on both sides.
      rw [keys, known, List.map_append, List.eraseDups_append]
      by_cases before : new.key ∈ done.map key
      · have dropped : [new.key].removeAll (done.map key) = [] :=
          List.filter_eq_nil_iff.mpr (by simpa using before)
        rw [if_pos (List.mem_eraseDups.mpr before), List.map_singleton, dropped, List.eraseDups_nil,
          List.append_nil]
      · have stays : [new.key].removeAll (done.map key) = [new.key] :=
          List.filter_eq_self.mpr (by simpa using before)
        rw [if_neg fun member => before (List.mem_eraseDups.mp member), List.map_singleton, stays]
        rfl
  exact onward drafts [] [] rfl

theorem addAll_nodup (drafts : List InterpretationDraft) :
    Gives (addAll drafts) fun reached => (reached.map key).Nodup := by
  refine .foldlM List.nodup_nil ?_
  intro list new _ distinct
  exact new.adds.nodup distinct

theorem addAll_of_nodup {drafts : List InterpretationDraft} (distinct : (drafts.map key).Nodup) :
    addAll drafts = pure drafts := by
  have apart : drafts.Pairwise fun old new => old.key ≠ new.key := List.pairwise_map.mp distinct
  refine foldlM_appends id apart ?_
  intro done new _ fresh
  exact new.adds.fresh fresh

/-- Whatever interpretations are added to a list without any, and in whatever order: the list has
one interpretation for each key, in the order in which the keys came up, and it is tried class by
class, with no interpretation lost or doubled and each class in the order of the list. Adding the
interpretations once more in the order in which they are tried gives them back in this order. What
is found for a keysym and modifiers is the first interpretation of the least class among those that
apply, and nothing is found only if none applies. -/
theorem ordered_classes (drafts : List InterpretationDraft) (diagnostics : Diagnostics) :
    let reached := (addAll drafts diagnostics).1
    let listed := reached.map (·.interpretation)
    listed.map Interpretation.key = (drafts.map key).eraseDups ∧
      (ordered reached).Perm listed ∧
      ((ordered reached).map Interpretation.key).Nodup ∧
      (ordered reached).Pairwise (·.rank ≤ ·.rank) ∧
      (∀ place, (ordered reached).filter (·.rank = place) = listed.filter (·.rank = place)) ∧
      (∀ again : List InterpretationDraft, again.map (·.interpretation) = ordered reached →
        ∀ reports, ordered (addAll again reports).1 = ordered reached) ∧
      ∀ keymap : Keymap, keymap.compat.interpretations = ordered reached → ∀ sym modmap,
        (∀ found, keymap.findInterpretation sym modmap = some found ↔
          (∀ other ∈ listed, other.applies sym modmap → found.rank ≤ other.rank) ∧
            listed.find? (fun other => other.rank = found.rank && other.applies sym modmap)
              = some found) ∧
        (keymap.findInterpretation sym modmap = none ↔
          ∀ other ∈ listed, other.applies sym modmap = false) := by
  intro reached listed
  have bounded : ∀ item ∈ listed, item.rank < 8 := fun item _ => item.rank_lt
  have order : ordered reached = byRank Interpretation.rank 8 listed := ordered_eq_byRank reached
  have keys : listed.map Interpretation.key = reached.map key := by
    rw [List.map_map]
    rfl
  have perm : (ordered reached).Perm listed := order ▸ byRank_perm bounded
  have distinct : ((ordered reached).map Interpretation.key).Nodup := by
    rw [(perm.map Interpretation.key).nodup_iff, keys]
    exact addAll_nodup drafts diagnostics
  refine ⟨keys.trans (addAll_keys drafts diagnostics), perm, distinct, ?_, ?_, ?_, ?_⟩
  · exact order ▸ byRank_sorted Interpretation.rank 8 listed
  · intro place
    exact order ▸ byRank_filter bounded place
  · -- The keys are different, so all that is added is appended.
    intro again same reports
    have fresh : (again.map key).Nodup := by
      rw [← same, List.map_map] at distinct
      exact distinct
    rw [addAll_of_nodup fresh]
    change ordered again = ordered reached
    rw [ordered_eq_byRank, same, order, byRank_byRank bounded]
  · intro keymap tried sym modmap
    have lookup : keymap.findInterpretation sym modmap
        = (byRank Interpretation.rank 8 listed).find? (·.applies sym modmap) := by
      rw [Keymap.findInterpretation, tried, order]
    constructor
    · intro found
      rw [lookup]
      exact find?_byRank bounded
    · rw [lookup, List.find?_eq_none]
      simp only [Bool.not_eq_true, (byRank_perm bounded).mem_iff]

/-- An interpretation without an action, for a keysym and modifiers. -/
def blank (sym : Keysym) (predicate : Predicate) (mods : UInt8) : InterpretationDraft :=
  { base with interpretation := { base.interpretation with sym, predicate, mods } }

/-- Of three interpretations that apply to a keysym with Shift, the last one to be defined is found,
since it is for the keysym and for Shift alone. -/
theorem ordered_classes_narrowest :
    let drafts := [blank .noSymbol .anyOfOrNone 0xff, blank 0x61 .anyOf 1,
      blank .noSymbol .anyOfOrNone 0xff, blank 0x61 .exactly 1]
    let reached := (addAll drafts (.atLevel 0)).1
    let again := [blank 0x61 .exactly 1, blank 0x61 .anyOf 1, blank .noSymbol .anyOfOrNone 0xff]
    let keymap := { Keymap.empty with
      compat := { CompatTable.empty with interpretations := ordered reached } }
    let found := (blank 0x61 .exactly 1).interpretation
    again.map (·.interpretation) = ordered reached ∧
      ordered (addAll again (.atLevel 10)).1 = ordered reached ∧
      keymap.compat.interpretations = ordered reached ∧
      keymap.findInterpretation 0x61 1 = some found ∧
      ∀ other ∈ reached.map (·.interpretation), other.applies 0x61 1 →
        found.rank ≤ other.rank := by
  intro drafts reached again keymap found
  obtain ⟨-, -, -, -, -, readded, tried⟩ := ordered_classes drafts (.atLevel 0)
  have same : again.map (·.interpretation) = ordered reached := by decide
  have located : keymap.findInterpretation 0x61 1 = some found := by decide
  have least := (((tried keymap rfl 0x61 1).1 found).mp located).1
  exact ⟨same, readded again same (.atLevel 10), rfl, located, least⟩

end InterpretationDraft

end Xkb
