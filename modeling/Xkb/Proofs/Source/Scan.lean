import Xkb.Library
import Xkb.Source.Section

/-! How readers put together from smaller ones run, and that none of them looks at the text again
that it has passed over. -/

namespace Xkb.Source

variable {α β : Type}

section Running

variable {reader other : Scan α} {next : α → Scan β} {cs rest : List Char} {found : α}
  {outcome : Option (α × List Char)} {result : Option (β × List Char)}

theorem orElse_of_some (fits : reader cs = some (found, rest)) :
    (reader <|> other) cs = some (found, rest) := by
  simp [HOrElse.hOrElse, OrElse.orElse, Alternative.orElse, StateT.orElse, fits]

theorem orElse_of_none (fails : reader cs = none) (ends : other cs = outcome) :
    (reader <|> other) cs = outcome := by
  simp [HOrElse.hOrElse, OrElse.orElse, Alternative.orElse, StateT.orElse, fails, ends]

theorem bind_of_some (fits : reader cs = some (found, rest)) (ends : next found rest = result) :
    (reader >>= next) cs = result := by
  simp [bind, StateT.bind, fits, ends]

theorem bind_of_none (fails : reader cs = none) : (reader >>= next) cs = none := by
  simp [bind, StateT.bind, fails]

variable {change : α → β}

theorem map_of_some (fits : reader cs = some (found, rest)) :
    (change <$> reader) cs = some (change found, rest) := by
  simp [Functor.map, StateT.map, fits]

theorem map_of_none (fails : reader cs = none) : (change <$> reader) cs = none := by
  simp [Functor.map, StateT.map, fails]

theorem optional_of_some (fits : reader cs = some (found, rest)) :
    optional reader cs = some (some found, rest) :=
  orElse_of_some (map_of_some fits)

theorem optional_of_none (fails : reader cs = none) : optional reader cs = some (none, cs) :=
  orElse_of_none (map_of_none fails) rfl

theorem many_of_none (fails : reader cs = none) (limit : Nat) :
    many reader limit cs = some ([], cs) := by
  cases limit with
  | zero => rfl
  | succ limit => exact bind_of_some (optional_of_none fails) rfl

variable {later : Scan β}

theorem seqRight_of_some (fits : reader cs = some (found, rest)) (ends : later rest = result) :
    (reader *> later) cs = result := by
  rw [seqRight_eq_bind]
  exact bind_of_some fits ends

theorem seqRight_of_none (fails : reader cs = none) : (reader *> later) cs = none := by
  rw [seqRight_eq_bind]
  exact bind_of_none fails

/-- Of two readers in a row the first may be the one that finds something. -/
theorem seqLeft_of_some {other : β} {left : List Char} (fits : reader cs = some (found, rest))
    (ends : later rest = some (other, left)) : (reader <* later) cs = some (found, left) := by
  rw [seqLeft_eq_bind]
  exact bind_of_some fits (bind_of_some ends rfl)

/-- Two readers in a row fail with the first, whichever is the one that finds something. -/
theorem seqLeft_of_none (fails : reader cs = none) : (reader <* later) cs = none := by
  rw [seqLeft_eq_bind]
  exact bind_of_none fails

end Running

section Inversion

variable {reader other : Scan α} {next : α → Scan β} {cs rest : List Char}

theorem bind_eq_some_iff {found : β} :
    (reader >>= next) cs = some (found, rest) ↔
      ∃ value middle, reader cs = some (value, middle) ∧ next value middle = some (found, rest) := by
  simp [bind, StateT.bind, Option.bind_eq_some_iff]

end Inversion

/-- A reader leaves an end of its text, shorter by at least the weight of what it finds. -/
def Takes (weight : α → Nat) (reader : Scan α) : Prop :=
  ∀ ⦃cs rest : List Char⦄ ⦃found : α⦄, reader cs = some (found, rest) →
    rest <:+ cs ∧ rest.length + weight found ≤ cs.length

/-- Two readers go together over texts of at most so many characters: they find the same, and they
leave an end of the text that is shorter by at least the weight of what they find. -/
def Together (size : Nat) (weight : α → Nat) (left right : Scan α) : Prop :=
  ∀ ⦃cs : List Char⦄, cs.length ≤ size → left cs = right cs ∧
    ∀ ⦃rest : List Char⦄ ⦃found : α⦄, left cs = some (found, rest) →
      rest <:+ cs ∧ rest.length + weight found ≤ cs.length

theorem Takes.together {weight : α → Nat} {reader : Scan α} (takes : Takes weight reader) {size : Nat} :
    Together size weight reader reader :=
  fun _ _ => ⟨rfl, fun _ _ fits => takes fits⟩

/-- Two limits come to the same for texts of at most so many characters: they are the same, or both
are enough. -/
def Room (size left right : Nat) : Prop :=
  left = right ∨ size ≤ left ∧ size ≤ right

namespace Room

variable {size left right : Nat}

theorem refl (size limit : Nat) : Room size limit limit :=
  .inl rfl

theorem within (room : Room size left right) {smaller : Nat} (inside : smaller ≤ size) :
    Room smaller left right := by
  unfold Room at *
  omega

theorem zero (room : Room (size + 1) 0 right) : right = 0 := by
  unfold Room at room
  omega

theorem succ (room : Room (size + 1) (left + 1) right) :
    ∃ limit, right = limit + 1 ∧ Room size left limit := by
  unfold Room at *
  exact ⟨right - 1, by omega, by omega⟩

end Room

namespace Together

variable {size : Nat} {weight : α → Nat} {left right : Scan α} {leftNext rightNext : α → Scan β}

theorem takes {reader : Scan α} (alone : ∀ size, Together size weight reader reader) :
    Takes weight reader :=
  fun cs _ _ fits => (alone cs.length (Nat.le_refl _)).2 fits

variable {smaller count : Nat} {next : β → Nat}

theorem mono (together : Together size weight left right) {less : α → Nat} (inside : smaller ≤ size)
    (lighter : ∀ found, less found ≤ weight found) :
    Together smaller less left right := by
  intro cs within
  obtain ⟨same, shorter⟩ := together (Nat.le_trans within inside)
  refine ⟨same, fun rest found fits => ?_⟩
  have fewer := lighter found
  exact ⟨(shorter fits).1, by have := (shorter fits).2; omega⟩

theorem within (together : Together size weight left right) (inside : smaller ≤ size) :
    Together smaller weight left right :=
  together.mono inside fun _ => Nat.le_refl _

theorem light (together : Together size weight left right) : Together size (fun _ => 0) left right :=
  together.mono (Nat.le_refl _) fun _ => Nat.zero_le _

/-- Readers that always take something find nothing in an empty text. -/
theorem nil (together : Together size weight left right) (positive : ∀ found, 0 < weight found) :
    left [] = none ∧ right [] = none := by
  obtain ⟨same, shorter⟩ := @together [] (Nat.zero_le size)
  have none : left [] = none := by
    refine Option.eq_none_iff_forall_ne_some.mpr fun found fits => ?_
    have less := (shorter fits).2
    have some := positive found.1
    rw [List.length_nil] at less
    omega
  exact ⟨none, same ▸ none⟩

theorem pure {value : α} (nothing : weight value = 0) :
    Together size weight (Pure.pure value) (Pure.pure value) := by
  refine fun cs _ => ⟨rfl, fun rest found fits => ?_⟩
  cases fits
  exact ⟨List.suffix_refl cs, by omega⟩

theorem failure : Together size weight (failure : Scan α) Alternative.failure :=
  fun _ _ => ⟨rfl, nofun⟩

/-- What two readers in a row find may weigh as much as both of them take; the second ones read a
text that is shorter by what the first ones took. -/
theorem bind (first : Together size weight left right)
    (second : ∀ value smaller, smaller + weight value ≤ size →
      Together smaller (fun found => next found - weight value) (leftNext value) (rightNext value)) :
    Together size next (left >>= leftNext) (right >>= rightNext) := by
  intro cs inside
  obtain ⟨same, shorter⟩ := first inside
  cases start : left cs with
  | none =>
    rw [bind_of_none start, bind_of_none (same ▸ start)]
    exact ⟨rfl, nofun⟩
  | some pair =>
    obtain ⟨value, middle⟩ := pair
    obtain ⟨ends, less⟩ := shorter start
    obtain ⟨sameNext, shorterNext⟩ := second value middle.length (by omega) (Nat.le_refl _)
    rw [bind_of_some start rfl, bind_of_some (same ▸ start) rfl]
    refine ⟨sameNext, fun rest found fits => ?_⟩
    obtain ⟨nextEnds, nextLess⟩ := shorterNext fits
    exact ⟨nextEnds.trans ends, by dsimp only at nextLess; omega⟩

theorem orElse {leftOther rightOther : Scan α} (first : Together size weight left right)
    (second : Together size weight leftOther rightOther) :
    Together size weight (left <|> leftOther) (right <|> rightOther) := by
  intro cs inside
  obtain ⟨same, shorter⟩ := first inside
  cases start : left cs with
  | none =>
    rw [orElse_of_none start rfl, orElse_of_none (same ▸ start) rfl]
    exact second inside
  | some pair =>
    rw [orElse_of_some start, orElse_of_some (same ▸ start)]
    exact ⟨rfl, fun rest found fits => shorter (start.trans fits)⟩

theorem map {change : α → β} (first : Together size weight left right)
    (lighter : ∀ found, next (change found) ≤ weight found) :
    Together size next (change <$> left) (change <$> right) := by
  rw [map_eq_pure_bind, map_eq_pure_bind]
  exact bind first fun value _ _ => pure (Nat.sub_eq_zero_of_le (lighter value))

theorem optional (first : Together size weight left right) :
    Together size (fun item => item.elim 0 weight) (optional left) (optional right) :=
  orElse (map first fun _ => Nat.le_refl _) (pure rfl)

theorem seqRight {leftLater rightLater : Scan β} (first : Together size (fun _ => count) left right)
    (second : ∀ smaller, smaller + count ≤ size →
      Together smaller (fun found => next found - count) leftLater rightLater) :
    Together size next (left *> leftLater) (right *> rightLater) := by
  rw [seqRight_eq_bind, seqRight_eq_bind]
  exact bind first fun _ => second

theorem seqLeft {leftLater rightLater : Scan β} (first : Together size weight left right)
    (second : Together size (fun _ => count) leftLater rightLater) :
    Together size (fun found => weight found + count) (left <* leftLater) (right <* rightLater) := by
  rw [seqLeft_eq_bind, seqLeft_eq_bind]
  refine bind first fun value smaller inside => bind (second.within (by omega)) fun _ _ _ => pure ?_
  omega

/-- Items weigh together what each of them weighs. Each takes a character, so limits that the text
is no longer than come to the same. -/
theorem many (items : Together size (fun found => weight found + 1) left right) {limit other : Nat}
    (room : Room size limit other) :
    Together size (Library.total weight) (many left limit) (many right other) := by
  -- The text is shorter behind the first item, and an empty text has none.
  induction size generalizing limit other with
  | zero =>
    intro cs inside
    obtain rfl := List.eq_nil_of_length_eq_zero (Nat.le_zero.mp inside)
    obtain ⟨none, otherNone⟩ := items.nil fun _ => Nat.succ_pos _
    rw [many_of_none none, many_of_none otherNone]
    exact (pure rfl : Together 0 (Library.total weight) (Pure.pure []) (Pure.pure [])) inside
  | succ size ih =>
    cases limit with
    | zero =>
      rw [room.zero]
      exact pure rfl
    | succ limit =>
      obtain ⟨other, rfl, behind⟩ := room.succ
      refine bind (optional items) fun item smaller inside => ?_
      cases item with
      | none => exact pure rfl
      | some first =>
        have further := ih (items.within (Nat.le_succ size)) behind
        dsimp only [Option.elim] at inside
        refine bind (further.within (by omega)) fun rest _ _ => pure ?_
        simp only [Library.total, List.foldr_cons, Option.elim]
        omega

end Together

end Xkb.Source
