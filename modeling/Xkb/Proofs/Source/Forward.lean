import Xkb.Proofs.Source.Progress

/-! Reading goes forward and comes to an end. What a reader leaves is a proper end of its text, and
limits beyond the length of the text come to the same. Faults lie on a line of the text. -/

namespace Xkb

/-- The line that a parse error is reported for. -/
def ParseError.line : ParseError → Nat
  | unexpected line _ => line
  | unexpectedEnd line => line
  | illegalInclude line _ => line

namespace Source

variable {α β : Type}

/-- The text that an answer leaves, if it is no failure. -/
def scanRest (answer : Option (α × List Char)) : Option (List Char) :=
  answer.map Prod.snd

@[inherit_doc scanRest]
def parseRest (answer : Except Fault (α × List Char)) : Option (List Char) :=
  scanRest answer.toOption

/-- The text that an answer leaves, if it found something. -/
def foundRest (answer : Except Fault (Option α × List Char)) : Option (List Char) :=
  answer.toOption.bind fun (found, rest) => found.map fun _ => rest

/-- A reader with a limit goes forward: it leaves a proper end of its text, and it answers the same
for all limits beyond the length of the text. -/
structure Forward (rest : β → Option (List Char)) (reader : Nat → List Char → β) : Prop where
  proper : ∀ limit cs left, rest (reader limit cs) = some left → left <:+ cs ∧ left ≠ cs
  unlimited : ∀ limit (cs : List Char), cs.length < limit →
    reader limit cs = reader (cs.length + 1) cs

theorem Room.beyond {size limit : Nat} (beyond : size < limit) : Room (size + 1) limit (size + 1) :=
  .inr ⟨beyond, Nat.le_refl _⟩

theorem ne_of_shorter {left cs : List Char} {weight : Nat} (shorter : left.length + weight ≤ cs.length)
    (positive : 0 < weight) : left ≠ cs := by
  rintro rfl
  omega

variable {weight : α → Nat}

theorem Forward.of_together {reader : Nat → Scan α}
    (together : ∀ {size limit other}, Room (size + 1) limit other →
      Together size weight (reader limit) (reader other)) (positive : ∀ found, 0 < weight found) :
    Forward scanRest reader where
  proper limit cs left read := by
    obtain ⟨⟨found, rest⟩, answer, rfl⟩ := Option.map_eq_some_iff.mp read
    obtain ⟨ends, shorter⟩ := (together (.refl _ limit) (Nat.le_refl cs.length)).2 answer
    exact ⟨ends, ne_of_shorter shorter (positive found)⟩
  unlimited limit cs beyond := (together (.beyond beyond) (Nat.le_refl _)).1

theorem Forward.of_takes {reader : Scan α} (takes : Takes weight reader)
    (positive : ∀ found, 0 < weight found) : Forward scanRest fun _ => reader :=
  .of_together (fun _ => takes.together) positive

theorem Forward.of_advances {reader : Nat → Parse α}
    (advances : ∀ {size limit other}, Room (size + 1) limit other →
      Advances size weight (reader limit) (reader other))
    {rest : Except Fault (α × List Char) → Option (List Char)}
    (found : ∀ answer left, rest answer = some left →
      ∃ value, answer = .ok (value, left) ∧ 0 < weight value) : Forward rest reader where
  proper limit cs left read := by
    obtain ⟨value, answer, positive⟩ := found _ _ read
    have stays := (advances (.refl _ limit) (Nat.le_refl cs.length)).2
    rw [answer] at stays
    exact ⟨stays.1, ne_of_shorter stays.2 positive⟩
  unlimited limit cs beyond := (advances (.beyond beyond) (Nat.le_refl _)).1

theorem eq_ok_of_parseRest {answer : Except Fault (α × List Char)} {left : List Char}
    (read : parseRest answer = some left) : ∃ value, answer = .ok (value, left) := by
  cases answer with
  | error fault => cases read
  | ok pair => cases read; exact ⟨pair.1, rfl⟩

/-- A fault is explained on the line that it starts on. -/
theorem explain_line (text : List Char) (fault : Fault) :
    (fault.explain text).line = lineOf text fault.rest := by
  cases fault with
  | illegalInclude rest => rfl
  | unexpected rest =>
    rw [Fault.explain]
    split <;> rfl

theorem lineOf_append (front rest : List Char) :
    lineOf (front ++ rest) rest = Text.lineFeeds front + 1 := by
  simp [lineOf, Text.lineFeeds]

theorem parse_error_line {text : String} {error : ParseError} (failed : parse text = .error error) :
    ∃ front rest, text.toList = front ++ rest ∧ error.line = Text.lineFeeds front + 1 := by
  have ⟨_, _, faults⟩ :=
    sections_advance (.refl _ (text.toList.length + 1)) (Nat.le_refl text.toList.length)
  simp only [parse] at failed
  split at failed
  · cases failed
  · next fault found =>
    cases failed
    obtain ⟨front, same⟩ := faults fault found
    refine ⟨front, fault.rest, same.symm, ?_⟩
    rw [explain_line, ← same, lineOf_append]

end Source

end Xkb
