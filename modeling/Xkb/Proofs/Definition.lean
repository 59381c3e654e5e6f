import Xkb.Definition

/-! Lists of entries with different keys: adding an entry, and finding or changing the first that
satisfies a test. -/

namespace Xkb

variable {α β : Type} {test : α → Bool} {change : α → α} {key : α → β} {list : List α} {item : α}

/-- A further entry with a new key leaves the keys different. -/
theorem nodup_map_concat (distinct : (list.map key).Nodup) (fresh : key item ∉ list.map key) :
    ((list ++ [item]).map key).Nodup := by
  rw [List.map_append, List.nodup_append]
  refine ⟨distinct, by simp, ?_⟩
  rintro known member other last rfl
  exact fresh (List.mem_singleton.mp last ▸ member)

/-- Where the keys are different, entries with the same key are the same. -/
theorem eq_of_key_eq (distinct : (list.map key).Nodup) {left right : α} (leftMember : left ∈ list)
    (rightMember : right ∈ list) (same : key left = key right) : left = right := by
  induction list with
  | nil => simp at leftMember
  | cons head tail ih =>
    rw [List.map_cons, List.nodup_cons] at distinct
    rcases List.mem_cons.mp leftMember with rfl | leftLater <;>
      rcases List.mem_cons.mp rightMember with rfl | rightLater
    · rfl
    · exact absurd (same ▸ List.mem_map_of_mem rightLater) distinct.1
    · exact absurd (same ▸ List.mem_map_of_mem leftLater) distinct.1
    · exact ih distinct.2 leftLater rightLater

/-- A key that comes up has a first entry. -/
theorem exists_first_of_mem_map [DecidableEq β] {wanted : β} (member : wanted ∈ list.map key) :
    ∃ before entry after, list = before ++ entry :: after ∧
      (∀ other ∈ before, key other ≠ wanted) ∧ key entry = wanted := by
  -- Searching for the key stops at the entry, and refuses all those before it.
  obtain ⟨known, held, same⟩ := List.mem_map.mp member
  obtain ⟨entry, found⟩ := Option.isSome_iff_exists.mp
    (List.find?_isSome (p := fun item => decide (key item = wanted)).mpr
      ⟨known, held, decide_eq_true same⟩)
  obtain ⟨here, before, after, split, refused⟩ := List.find?_eq_some_iff_append.mp found
  refine ⟨before, entry, after, split, fun other early => ?_, of_decide_eq_true here⟩
  simpa using refused other early

/-- In an ordered list, what is found comes before all others that satisfy the test. -/
theorem rel_of_find? {relates : α → α → Prop} (ordered : list.Pairwise relates) {found other : α}
    (located : list.find? test = some found) (member : other ∈ list) (satisfies : test other = true) :
    other = found ∨ relates found other := by
  obtain ⟨-, before, after, split, refused⟩ := List.find?_eq_some_iff_append.mp located
  rw [split] at ordered member
  rcases List.mem_append.mp member with early | late
  · simpa [satisfies] using refused other early
  · rcases List.mem_cons.mp late with same | behind
    · exact .inl same
    · exact .inr (List.rel_of_pairwise_cons (List.pairwise_append.mp ordered).2.1 behind)

/-- What the change does not touch stays as it was. -/
theorem map_changeFirst {view : α → β} (same : ∀ item, test item → view (change item) = view item)
    (list : List α) : (changeFirst test change list).map view = list.map view := by
  induction list with
  | nil => rfl
  | cons head tail ih =>
    simp only [changeFirst]
    split
    · rename_i found
      simp [same head found]
    · simp [ih]

/-- An image of the list is changed where the list is, if the image of an entry satisfies the test
as the entry does. -/
theorem changeFirst_map {image : α → β} {otherTest : β → Bool} {otherChange : β → β}
    (sameTest : ∀ item, otherTest (image item) = test item)
    (sameChange : ∀ item, otherChange (image item) = image (change item)) (list : List α) :
    changeFirst otherTest otherChange (list.map image) = (changeFirst test change list).map image := by
  induction list with
  | nil => rfl
  | cons head tail ih =>
    simp only [List.map_cons, changeFirst, sameTest, sameChange, ih]
    split <;> rfl

/-- The first entry that satisfies the test is changed, and the others stay. -/
theorem changeFirst_split {before after : List α} {entry : α}
    (others : ∀ other ∈ before, test other = false) (here : test entry = true) :
    changeFirst test change (before ++ entry :: after) = before ++ change entry :: after := by
  induction before with
  | nil => simp [changeFirst, here]
  | cons head tail ih =>
    rw [List.cons_append, changeFirst, others head List.mem_cons_self,
      ih fun other member => others other (List.mem_cons_of_mem _ member)]
    rfl

/-- An entry of the changed list was there before, or comes from one that satisfies the test. -/
theorem mem_changeFirst (member : item ∈ changeFirst test change list) :
    item ∈ list ∨ ∃ old ∈ list, test old ∧ item = change old := by
  induction list with
  | nil => simp [changeFirst] at member
  | cons head tail ih =>
    simp only [changeFirst] at member
    split at member
    · rename_i found
      rcases List.mem_cons.mp member with rfl | member
      · exact .inr ⟨head, by simp, found, rfl⟩
      · exact .inl (by simp [member])
    · rcases List.mem_cons.mp member with rfl | member
      · exact .inl (by simp)
      · rcases ih member with known | ⟨old, known, found, same⟩
        · exact .inl (by simp [known])
        · exact .inr ⟨old, by simp [known], found, same⟩

/-- An entry that does not satisfy the test is still there. -/
theorem mem_changeFirst_of_not (member : item ∈ list) (other : test item = false) :
    item ∈ changeFirst test change list := by
  induction list with
  | nil => cases member
  | cons head tail ih =>
    simp only [changeFirst]
    rcases List.mem_cons.mp member with rfl | later
    · simp [other]
    · split
      · simp [later]
      · simp [ih later]

/-- A new entry in the place of another that is related to all entries leaves them related. -/
theorem pairwise_changeFirst {related : α → α → Prop} (pairwise : list.Pairwise related)
    (fits : ∀ old ∈ list, related old item ∧ related item old) :
    (changeFirst test (fun _ => item) list).Pairwise related := by
  induction list with
  | nil => exact pairwise
  | cons head tail ih =>
    obtain ⟨headRelated, tailRelated⟩ := List.pairwise_cons.mp pairwise
    have behind : ∀ old ∈ tail, related old item ∧ related item old :=
      fun old member => fits old (by simp [member])
    simp only [changeFirst]
    split
    · exact List.pairwise_cons.mpr ⟨fun old member => (behind old member).2, tailRelated⟩
    · refine List.pairwise_cons.mpr ⟨fun later member => ?_, ih tailRelated behind⟩
      rcases mem_changeFirst member with known | ⟨_, _, _, rfl⟩
      · exact headRelated later known
      · exact (fits head (by simp)).1

end Xkb
