import Xkb.Proofs.Source.Inclusion
import Xkb.Proofs.Source.Scan

/-! Every reader goes forward: what it leaves is an end of its text, and shorter by what it found.
So limits beyond the length of a text never decide what is read. -/

namespace Xkb

namespace Library

variable {α : Type}

theorem total_cons (size : α → Nat) (item : α) (rest : List α) :
    total size (item :: rest) = size item + total size rest :=
  rfl

theorem total_const (count : Nat) (list : List α) :
    total (fun _ => count) list = count * list.length := by
  induction list with
  | nil => rfl
  | cons item rest ih =>
    rw [total_cons, ih, List.length_cons, Nat.mul_succ, Nat.add_comm]

theorem total_add (size other : α → Nat) (list : List α) :
    total (fun item => size item + other item) list = total size list + total other list := by
  induction list with
  | nil => rfl
  | cons item rest ih =>
    simp only [total_cons]
    omega

theorem total_append (size : α → Nat) (left right : List α) :
    total size (left ++ right) = total size left + total size right := by
  induction left with
  | nil => simp [total]
  | cons item rest ih =>
    simp only [List.cons_append, total_cons]
    omega

/-- The number of include terms of a statement. -/
def statementTerms : Statement → Nat
  | .inclusion included => included.terms.length
  | _ => 0

theorem termCount_eq (part : Section) : termCount part = total statementTerms part.statements := by
  rfl

end Library

namespace Source

open Library

theorem skipFrom_suffix (pending : Nat) (cs : List Char) : skipFrom pending cs <:+ cs := by
  -- Each case drops one character or stops, whatever is still to be passed over.
  fun_induction skipFrom pending cs with
  | case1 => exact List.suffix_refl _
  | case2 pending c rest ih => exact ih.trans (List.suffix_cons c rest)
  | case3 c rest space ih => exact ih.trans (List.suffix_cons c rest)
  | case4 c rest space length comment ih => exact ih.trans (List.suffix_cons c rest)
  | case5 => exact List.suffix_refl _

theorem skip_suffix (cs : List Char) : skip cs <:+ cs :=
  skipFrom_suffix 0 cs

theorem takes_of_skip {α : Type} {weight : α → Nat} {reader : Scan α}
    (takes : ∀ ⦃cs rest : List Char⦄ ⦃found : α⦄, reader cs = some (found, rest) →
      rest <:+ skip cs ∧ rest.length + weight found ≤ (skip cs).length) : Takes weight reader := by
  intro cs rest found fits
  obtain ⟨ends, shorter⟩ := takes fits
  have skipped := skip_suffix cs
  exact ⟨ends.trans skipped, Nat.le_trans shorter skipped.length_le⟩

/-- A given character is taken. -/
theorem punct_takes (c : Char) : Takes (fun _ => 1) (punct c) := by
  refine takes_of_skip fun cs rest found fits => ?_
  simp only [punct] at fits
  split at fits
  · rename_i head tail start
    split at fits
    · simp only [Option.some.injEq, Prod.mk.injEq] at fits
      rw [start, ← fits.2]
      exact ⟨List.suffix_cons head tail, by simp⟩
    · simp at fits
  · simp at fits

theorem ident_takes : Takes (fun _ => 1) ident := by
  refine takes_of_skip fun cs rest found fits => ?_
  simp only [ident] at fits
  split at fits
  · rename_i head tail start
    split at fits
    · simp only [Option.some.injEq, Prod.mk.injEq] at fits
      have dropped := List.dropWhile_suffix (l := tail) isIdentRest
      rw [start, ← fits.2]
      exact ⟨dropped.trans (List.suffix_cons head tail),
        by have := dropped.length_le; simp; omega⟩
    · simp at fits
  · simp at fits

theorem keyword_takes (word : String) : Takes (fun _ => 1) (keyword word) :=
  Together.takes fun _ => Together.bind ident_takes.together fun found _ _ => by
    unfold guard
    split
    · exact Together.pure rfl
    · exact Together.failure

theorem digits_shorter {base : Nat} {cs rest : List Char} {value : Int64}
    (fits : digits base cs = some (value, rest)) : rest <:+ cs ∧ rest.length + 1 ≤ cs.length := by
  simp only [digits, Option.map_eq_some_iff, Prod.mk.injEq] at fits
  obtain ⟨number, read, -, left⟩ := fits
  -- Reading accepts no empty run of digits, so the run in front of the rest is not empty.
  have someDigit : cs.takeWhile (Text.isDigitOf base) ≠ [] := by
    intro none
    simp [Text.readDigits, none] at read
  have parts := List.takeWhile_append_dropWhile (p := Text.isDigitOf base) (l := cs)
  have lengths := congrArg List.length parts
  rw [List.length_append] at lengths
  have positive := List.length_pos_iff.mpr someDigit
  rw [← left]
  exact ⟨List.dropWhile_suffix _, by omega⟩

theorem integer_takes : Takes (fun _ => 1) integer := by
  refine takes_of_skip fun cs rest found fits => ?_
  simp only [integer] at fits
  generalize skip cs = text at fits
  cases hex : hexInteger text with
  | none => exact digits_shorter (by simpa [hex] using fits)
  | some pair =>
    obtain rfl : pair = (found, rest) := by simpa [hex] using fits
    -- The digits come behind the two characters of the marker.
    unfold hexInteger at hex
    split at hex
    · obtain ⟨ends, shorter⟩ := digits_shorter hex
      exact ⟨ends.trans ((List.suffix_cons _ _).trans (List.suffix_cons _ _)), by simp; omega⟩
    · obtain ⟨ends, shorter⟩ := digits_shorter hex
      exact ⟨ends.trans ((List.suffix_cons _ _).trans (List.suffix_cons _ _)), by simp; omega⟩
    · simp at hex

theorem stringFrom_shorter {pending : Nat} {cs rest found : List Char}
    (fits : stringFrom pending cs = some (found, rest)) :
    rest <:+ cs ∧ found.length + rest.length + 1 ≤ cs.length := by
  fun_induction stringFrom pending cs generalizing found rest with
  | case1 => simp at fits
  | case2 pending c tail ih =>
    obtain ⟨ends, shorter⟩ := ih fits
    exact ⟨ends.trans (List.suffix_cons c tail), by simp; omega⟩
  | case3 tail =>
    simp only [Option.some.injEq, Prod.mk.injEq] at fits
    rw [← fits.1, ← fits.2]
    exact ⟨List.suffix_cons _ tail, by simp⟩
  | case4 => simp at fits
  | case5 tail c length escaped ih =>
    simp only [Option.map_eq_some_iff] at fits
    obtain ⟨⟨inner, left⟩, read, rfl, rfl⟩ := fits
    obtain ⟨ends, shorter⟩ := ih read
    exact ⟨ends.trans (List.suffix_cons _ tail), by simp; omega⟩
  | case6 c tail notQuote notEscape ih =>
    simp only [Option.map_eq_some_iff] at fits
    obtain ⟨⟨inner, left⟩, read, rfl, rfl⟩ := fits
    obtain ⟨ends, shorter⟩ := ih read
    exact ⟨ends.trans (List.suffix_cons c tail), by simp; omega⟩

theorem stringBody_takes : Takes (fun text => text.toList.length + 2) stringBody := by
  intro cs rest found fits
  unfold stringBody at fits
  split at fits
  · rename_i tail
    simp only [Option.map_eq_some_iff, Prod.mk.injEq] at fits
    obtain ⟨⟨inner, left⟩, read, same, sameRest⟩ := fits
    obtain ⟨ends, shorter⟩ := stringFrom_shorter read
    simp only [← same, ← sameRest, String.toList_ofList, List.length_cons]
    exact ⟨ends.trans (List.suffix_cons _ tail), by omega⟩
  · simp at fits

theorem stringLiteral_takes : Takes (fun text => text.toList.length + 2) stringLiteral :=
  takes_of_skip fun _ _ _ fits => stringBody_takes fits

theorem keyName_takes : Takes (fun _ => 2) keyName := by
  refine takes_of_skip fun cs rest found fits => ?_
  simp only [keyName] at fits
  split at fits
  · rename_i tail start
    split at fits
    · rename_i left closed
      simp only [Option.some.injEq, Prod.mk.injEq] at fits
      have dropped := List.dropWhile_suffix (l := tail) isKeyNameChar
      rw [closed] at dropped
      have shorter := dropped.length_le
      rw [start, ← fits.2]
      exact ⟨(List.suffix_cons _ left).trans (dropped.trans (List.suffix_cons _ tail)),
        by simp at shorter ⊢; omega⟩
    · simp at fits
  · simp at fits

theorem keysym_takes : Takes (fun _ => 1) keysym :=
  Together.takes fun _ =>
    .orElse ident_takes.together (.map integer_takes.together fun _ => Nat.le_refl 1)

variable {size limit other : Nat}

section Combined

variable {α : Type} {left right : Scan α} {weight : α → Nat}

/-- Readers that go together behind a given character do so with it. -/
theorem after_together (c : Char)
    (second : ∀ smaller < size, Together smaller weight left right) :
    Together size (fun found => weight found + 1) (punct c *> left) (punct c *> right) :=
  .seqRight (punct_takes c).together second

theorem separatedSome_together (items : Together size weight left right)
    (room : Room size limit other) :
    Together size (total weight) (separatedSome left limit) (separatedSome right other) := by
  have further := after_together ',' fun smaller less => items.within (Nat.le_of_lt less)
  refine .bind items fun first smaller inside => ?_
  refine .bind ((further.many room).within (by omega)) fun rest _ _ => .pure ?_
  rw [total_cons]
  omega

theorem separated_together (items : Together size weight left right) (room : Room size limit other) :
    Together size (total weight) (separated left limit) (separated right other) :=
  .orElse (separatedSome_together items room) (.pure rfl)

theorem commaList_together (items : Together size weight left right)
    (room : Room size limit other) :
    Together size (fun _ => 0) (commaList left limit) (commaList right other) :=
  .bind (separated_together items room).light fun _ _ _ =>
    .bind (punct_takes ',').together.optional.light fun _ _ _ => .pure rfl

theorem enclosed_together (opening closing : Char)
    (content : ∀ smaller < size, Together smaller (fun _ => 0) left right) :
    Together size (fun _ => 2) (enclosed opening closing left) (enclosed opening closing right) :=
  .bind (punct_takes opening).together fun _ smaller inside =>
    .bind (content smaller inside) fun _ _ _ =>
      .bind (punct_takes closing).together fun _ _ _ => .pure rfl

end Combined

section Expressions

variable {left right : Scan Expr}

theorem chain_together {operator : Scan BinaryOp} (operators : Takes (fun _ => 1) operator)
    (operands : Together size (fun _ => 1) left right) (room : Room (size + 1) limit other)
    (first : Expr) :
    Together size (fun _ => 0) (chain operator left limit first)
      (chain operator right other first) := by
  induction limit generalizing size other first with
  | zero =>
    rw [room.zero]
    exact .failure
  | succ limit ih =>
    obtain ⟨other, rfl, behind⟩ := room.succ
    refine .bind operators.together.optional fun op smaller inside => ?_
    cases op with
    | none => exact .pure rfl
    | some op =>
      have less : smaller < size := inside
      refine .bind (operands.within (Nat.le_of_lt less)) fun second fewer within => ?_
      exact ih (operands.within (by omega)) (behind.within (by omega)) _

variable (inner : ∀ smaller < size, Together smaller (fun _ => 1) left right)
  (room : Room size limit other)
include inner room

theorem arguments_together :
    Together size (fun _ => 2) (arguments left limit) (arguments right other) :=
  enclosed_together '(' ')' fun smaller less =>
    commaList_together (inner smaller less) (room.within (Nat.le_of_lt less))

theorem call_together : Together size (fun _ => 1) (call left limit) (call right other) :=
  .bind ident_takes.together fun _ _ _ =>
    .bind ((arguments_together inner room).within (by omega)) fun _ _ _ => .pure rfl

theorem bracketList_together :
    Together size (fun _ => 2) (bracketList left limit) (bracketList right other) := by
  refine enclosed_together '[' ']' fun smaller less => ?_
  have inside := Nat.le_of_lt less
  have calls := (call_together inner room).within inside
  exact Together.orElse
    (.map (separatedSome_together calls (room.within inside)) fun _ => Nat.zero_le _)
    (.map (separated_together keysym_takes.together (room.within inside)) fun _ => Nat.zero_le _)

omit room in
theorem targetTail_together (name : String) :
    Together size (fun _ => 0) (targetTail left name) (targetTail right name) :=
  .bind (after_together '.' fun _ _ => ident_takes.together).optional.light fun _ _ _ =>
    .bind ((enclosed_together '[' ']' fun _ less => (inner _ less).light).optional.light.within (by omega)) fun _ _ _ => .pure rfl

theorem reference_together :
    Together size (fun _ => 1) (reference left limit) (reference right other) := by
  refine .bind ident_takes.together fun name smaller inside => ?_
  refine .bind ((arguments_together inner room).optional.light.within (by omega)) fun args fewer _ => ?_
  cases args with
  | none => exact (targetTail_together inner name).within (by omega)
  | some args => exact .pure rfl

theorem primary_together :
    Together size (fun _ => 1) (primary left limit) (primary right other) := by
  have heavy {α : Type} {first second : Scan α} (two : Together size (fun _ => 2) first second) :
      Together size (fun _ => 1) first second := two.mono (Nat.le_refl _) fun _ => by decide
  refine .orElse (heavy (enclosed_together '(' ')' fun _ less => (inner _ less).light)) ?_
  refine .orElse (.map stringLiteral_takes.together fun _ => by omega) ?_
  refine .orElse (.map keyName_takes.together fun _ => by decide) ?_
  refine .orElse (.map integer_takes.together fun _ => by decide) ?_
  exact .orElse (heavy (bracketList_together inner room)) (reference_together inner room)

omit inner room in
theorem sign_takes {α : Type} (c : Char) (value : α) :
    Takes (fun _ => 1) (punct c *> pure value) :=
  Together.takes fun _ => after_together c fun _ _ => .pure rfl

omit inner room in
theorem unaryOperator_takes : Takes (fun _ => 1) unaryOperator :=
  Together.takes fun _ => .orElse (sign_takes '-' _).together (.orElse (sign_takes '+' _).together
    (.orElse (sign_takes '!' _).together (sign_takes '~' _).together))

theorem unary_together : Together size (fun _ => 1) (unary left limit) (unary right other) :=
  .bind (unaryOperator_takes.together.many room).light fun _ _ _ =>
    .bind ((primary_together inner room).within (by omega)) fun _ _ _ => .pure rfl

theorem product_together : Together size (fun _ => 1) (product left limit) (product right other) := by
  have operands := unary_together inner room
  refine .bind operands fun first smaller inside => ?_
  refine chain_together ?_ (operands.within (by omega)) (room.within inside) first
  exact Together.takes fun _ => .orElse (sign_takes '*' _).together (sign_takes '/' _).together

theorem sum_together : Together size (fun _ => 1) (sum left limit) (sum right other) := by
  have operands := product_together inner room
  refine .bind operands fun first smaller inside => ?_
  refine chain_together ?_ (operands.within (by omega)) (room.within inside) first
  exact Together.takes fun _ => .orElse (sign_takes '+' _).together (sign_takes '-' _).together

omit inner room in
/-- Expressions are read alike with any limits beyond the length of the text. -/
theorem expression_together (room : Room (size + 1) limit other) :
    Together size (fun _ => 1) (expression limit) (expression other) := by
  induction limit generalizing size other with
  | zero =>
    rw [room.zero]
    exact .failure
  | succ limit ih =>
    obtain ⟨other, rfl, behind⟩ := room.succ
    have inner (smaller : Nat) (less : smaller < size) :
        Together smaller (fun _ => 1) (expression limit) (expression other) :=
      ih (behind.within less)
    refine .bind (sum_together inner behind) fun left smaller inside => ?_
    refine .bind (punct_takes '=').together.optional.light fun assigned fewer _ => ?_
    cases assigned with
    | none => exact .pure rfl
    | some _ =>
      exact .bind (inner fewer (by omega)) fun _ _ _ => .pure rfl

end Expressions

section Statements

variable (room : Room size limit other)
include room

theorem inner_together (smaller : Nat) (less : smaller < size) :
    Together smaller (fun _ => 1) (expression limit) (expression other) :=
  expression_together (room.within less)

theorem target_together : Together size (fun _ => 1) (target limit) (target other) :=
  .bind ident_takes.together fun name _ _ =>
    (targetTail_together (inner_together room) name).within (by omega)

/-- An expression behind a sign may be there. -/
theorem given_together (c : Char) :
    Together size (fun _ => 0) (optional (punct c *> expression limit))
      (optional (punct c *> expression other)) :=
  (after_together c (inner_together room)).optional.light

theorem valueOf_together : Together size (fun _ => 1) (valueOf limit) (valueOf other) :=
  .bind (target_together room) fun _ _ _ =>
    .bind ((given_together room '=').within (by omega)) fun _ _ _ => .pure rfl

theorem negated_together : Together size (fun _ => 1) (negated limit) (negated other) :=
  .bind (punct_takes '!').together fun _ _ _ =>
    .bind ((target_together room).within (by omega)) fun _ _ _ => .pure rfl

theorem assignment_together : Together size (fun _ => 2) (assignment limit) (assignment other) :=
  .orElse (.seqLeft (negated_together room) (punct_takes ';').together)
    (.seqLeft (valueOf_together room) (punct_takes ';').together)

theorem body_together : Together size (fun _ => 3) (body limit) (body other) := by
  refine .seqLeft (enclosed_together '\x7b' '\x7d' fun smaller less => ?_) (punct_takes ';').together
  have inside := Nat.le_of_lt less
  exact (((assignment_together room).within inside).many (room.within inside)).light

theorem keyEntry_together : Together size (fun _ => 1) (keyEntry limit) (keyEntry other) :=
  .orElse (.map (bracketList_together (inner_together room) room) fun _ => by decide)
    (.orElse (negated_together room) (valueOf_together room))

/-- What statements weigh: their include terms and one character. -/
def statementsWeight (found : List Statement) : Nat :=
  1 + total statementTerms found

/-- A statement without its mode takes something, whatever it declares, and includes nothing. -/
theorem declaration_together :
    Together size statementsWeight (declaration limit) (declaration other) := by
  -- The alternatives are taken in the order in which they are tried.
  refine .orElse ?keycode (.orElse ?keyAlias (.orElse ?modifiers (.orElse ?interpretation (.orElse
    ?keyType (.orElse ?key (.orElse ?modifierMap (.orElse ?group (.orElse ?indicatorMap (.orElse
    ?indicatorName ?assigned)))))))))
  case keycode =>
    exact .bind keyName_takes.together fun _ _ _ => .bind (punct_takes '=').together fun _ _ _ =>
      .bind integer_takes.together fun _ _ _ => .bind (punct_takes ';').together fun _ _ _ =>
        .pure rfl
  case keyAlias =>
    exact .bind (keyword_takes _).together fun _ _ _ => .bind keyName_takes.together fun _ _ _ =>
      .bind (punct_takes '=').together fun _ _ _ => .bind keyName_takes.together fun _ _ _ =>
        .bind (punct_takes ';').together fun _ _ _ => .pure rfl
  case modifiers =>
    -- Each modifier makes a statement of its own.
    have one : Together size statementTerms (virtualModifier limit) (virtualModifier other) :=
      .bind ident_takes.together fun _ _ _ =>
        .bind ((given_together room '=').within (by omega)) fun _ _ _ => .pure rfl
    refine .bind (keyword_takes _).together fun _ smaller inside => ?_
    refine .bind ((separatedSome_together one room).within (by omega)) fun found _ _ => ?_
    refine .bind (punct_takes ';').together fun _ _ _ => .pure ?_
    rw [statementsWeight]
    omega
  case interpretation =>
    exact .bind (keyword_takes _).together fun _ _ _ => .bind keysym_takes.together fun _ _ _ =>
      .bind ((given_together room '+').within (by omega)) fun _ _ _ =>
        .bind ((body_together room).within (by omega)) fun _ _ _ => .pure rfl
  case keyType =>
    exact .bind (keyword_takes _).together fun _ _ _ =>
      .bind stringLiteral_takes.together.light fun _ _ _ =>
        .bind ((body_together room).within (by omega)) fun _ _ _ => .pure rfl
  case key =>
    have entries := enclosed_together '\x7b' '\x7d' fun smaller (less : smaller < size) =>
      commaList_together ((keyEntry_together room).within (Nat.le_of_lt less))
        (room.within (Nat.le_of_lt less))
    exact .bind (keyword_takes _).together fun _ _ _ => .bind keyName_takes.together fun _ _ _ =>
      .bind (entries.within (by omega)) fun _ _ _ =>
        .bind (punct_takes ';').together fun _ _ _ => .pure rfl
  case modifierMap =>
    have keys := enclosed_together '\x7b' '\x7d' fun smaller (less : smaller < size) =>
      commaList_together (inner_together room smaller less) (room.within (Nat.le_of_lt less))
    refine .bind (.orElse (keyword_takes _).together (.orElse (keyword_takes _).together
      (keyword_takes _).together)) fun _ _ _ => ?_
    exact .bind ident_takes.together fun _ _ _ =>
      .bind (keys.within (by omega)) fun _ _ _ =>
        .bind (punct_takes ';').together fun _ _ _ => .pure rfl
  case group =>
    exact .bind (keyword_takes _).together fun _ smaller _ => .bind integer_takes.together fun _ _ _ =>
      .bind (punct_takes '=').together fun _ _ _ =>
        .bind (inner_together room _ (by omega)) fun _ _ _ =>
          .bind (punct_takes ';').together fun _ _ _ => .pure rfl
  case indicatorMap =>
    exact .bind (keyword_takes _).together fun _ _ _ =>
      .bind stringLiteral_takes.together.light fun _ _ _ =>
        .bind ((body_together room).within (by omega)) fun _ _ _ => .pure rfl
  case indicatorName =>
    exact .bind (keyword_takes _).together.optional.light fun _ _ _ =>
      .bind (keyword_takes _).together fun _ _ _ => .bind integer_takes.together fun _ _ _ =>
        .bind (punct_takes '=').together fun _ _ _ =>
          .bind (inner_together room _ (by omega)) fun _ _ _ =>
            .bind (punct_takes ';').together fun _ _ _ => .pure rfl
  case assigned => exact .map (assignment_together room) fun _ => Nat.le_succ 1

end Statements

/-- The text that a fault is found at. -/
def Fault.rest : Fault → List Char
  | .unexpected rest => rest
  | .illegalInclude rest => rest

/-- An answer to a text leaves an end of it, shorter by at least the weight of what was found, or
finds fault with an end of it. -/
def Stays {α : Type} (weight : α → Nat) (cs : List Char) : Except Fault (α × List Char) → Prop
  | .ok (found, rest) => rest <:+ cs ∧ rest.length + weight found ≤ cs.length
  | .error fault => fault.rest <:+ cs

theorem Stays.behind {α : Type} {weight next : α → Nat} {cs rest : List Char}
    {answer : Except Fault (α × List Char)} (stays : Stays weight rest answer) (ends : rest <:+ cs)
    (less : ∀ found, next found + rest.length ≤ weight found + cs.length) :
    Stays next cs answer := by
  cases answer with
  | error fault => exact stays.trans ends
  | ok pair =>
    have shorter := stays.2
    have longer := less pair.1
    exact ⟨stays.1.trans ends, by omega⟩

/-- Two readers that say why they fail go together over texts of at most so many characters. -/
def Advances {α : Type} (size : Nat) (weight : α → Nat) (left right : Parse α) : Prop :=
  ∀ ⦃cs : List Char⦄, cs.length ≤ size → left cs = right cs ∧ Stays weight cs (left cs)

namespace Advances

variable {α β : Type} {weight : α → Nat} {left right : Parse α} {leftNext rightNext : α → Parse β}
  {smaller : Nat}

theorem mono (advances : Advances size weight left right) {less : α → Nat} (inside : smaller ≤ size)
    (lighter : ∀ found, less found ≤ weight found) :
    Advances smaller less left right := by
  intro cs within
  obtain ⟨same, stays⟩ := advances (Nat.le_trans within inside)
  exact ⟨same, stays.behind (List.suffix_refl cs) fun found => Nat.add_le_add_right (lighter found) _⟩

theorem within (advances : Advances size weight left right) (inside : smaller ≤ size) :
    Advances smaller weight left right :=
  advances.mono inside fun _ => Nat.le_refl _

theorem light (advances : Advances size weight left right) :
    Advances size (fun _ => 0) left right :=
  advances.mono (Nat.le_refl _) fun _ => Nat.zero_le _

theorem pure {value : α} (nothing : weight value = 0) :
    Advances size weight (Pure.pure value) (Pure.pure value) :=
  fun cs _ => ⟨rfl, List.suffix_refl cs, by omega⟩

theorem bind {next : β → Nat} (first : Advances size weight left right)
    (second : ∀ value smaller, smaller + weight value ≤ size →
      Advances smaller (fun found => next found - weight value) (leftNext value)
        (rightNext value)) :
    Advances size next (left >>= leftNext) (right >>= rightNext) := by
  intro cs inside
  obtain ⟨same, stays⟩ := first inside
  simp only [Bind.bind, StateT.bind, ← same]
  cases start : left cs with
  | error fault => exact ⟨rfl, by rwa [start] at stays⟩
  | ok pair =>
    obtain ⟨value, middle⟩ := pair
    rw [start] at stays
    obtain ⟨ends, less⟩ := stays
    obtain ⟨sameNext, staysNext⟩ := second value middle.length (by omega) (Nat.le_refl _)
    exact ⟨sameNext, staysNext.behind ends fun found => by omega⟩

theorem attempt {left right : Scan α} (together : Together size weight left right) :
    Advances size (fun item => item.elim 0 weight) (attempt left) (attempt right) := by
  intro cs inside
  obtain ⟨same, shorter⟩ := together inside
  refine ⟨by simp only [Source.attempt, same], ?_⟩
  rw [Source.attempt]
  split
  · next start => exact shorter start
  · exact ⟨List.suffix_refl cs, Nat.le_refl _⟩

theorem expect (c : Char) : Advances size (fun _ => 1) (expect c) (expect c) := by
  refine fun cs _ => ⟨rfl, ?_⟩
  rw [Source.expect]
  split
  · next read => exact punct_takes c read
  · exact skip_suffix cs

end Advances

section Sections

/-- The word that sets a mode takes something. -/
theorem mergeWord_takes : Takes (fun _ => 1) mergeWord := by
  have word {α : Type} (name : String) (value : α) {size : Nat} :
      Together size (fun _ => 1) (keyword name *> pure value) (keyword name *> pure value) :=
    .seqRight (keyword_takes name).together fun _ _ => .pure rfl
  exact Together.takes fun _ =>
    .orElse (word _ _) (.orElse (word _ _) (.orElse (word _ _) (.orElse (word _ _) (word _ _))))

variable {text : String} {found : List Section}

theorem includeStatement_length {merge : MergeMode} {included : IncludeStatement}
    (read : includeStatement merge text = some included) :
    included.terms.length ≤ text.toList.length + 1 := by
  rw [(includeStatement_counts read).1]
  exact Nat.add_le_add_right List.countP_le_length 1

theorem statementsWeight_withMerge (merge : MergeMode) (found : List Statement) :
    statementsWeight (found.map (Statement.withMerge merge)) = statementsWeight found := by
  simp only [statementsWeight, total, List.foldr_map]
  congr 2
  funext statement rest
  cases statement <;> rfl

/-- A statement that is found takes something, and more than it has include terms. -/
theorem statement_advances (room : Room size limit other) :
    Advances size (fun found => found.elim 0 statementsWeight) (statement limit)
      (statement other) := by
  have declared := declaration_together room
  intro cs inside
  simp only [statement]
  cases word : mergeWord cs with
  | none => exact Advances.attempt declared inside
  | some pair =>
    obtain ⟨merge, rest⟩ := pair
    obtain ⟨wordEnds, wordLess⟩ := mergeWord_takes word
    have stays : Stays (fun found => found.elim 0 statementsWeight) cs (.ok (none, cs)) :=
      ⟨List.suffix_refl cs, Nat.le_refl _⟩
    dsimp only
    cases string : stringLiteral rest with
    | some pair =>
      obtain ⟨text, left⟩ := pair
      obtain ⟨ends, less⟩ := stringLiteral_takes string
      dsimp only at less ⊢
      cases terms : includeStatement merge text with
      | none => exact ⟨rfl, (skip_suffix rest).trans wordEnds⟩
      | some included =>
        have few := includeStatement_length terms
        refine ⟨rfl, ends.trans wordEnds, ?_⟩
        simp only [Option.elim, statementsWeight, total, List.foldr_cons, List.foldr_nil,
          statementTerms]
        omega
    | none =>
      obtain ⟨same, shorter⟩ := declared (Nat.le_trans wordEnds.length_le inside)
      dsimp only
      rw [← same]
      split
      · exact ⟨rfl, stays⟩
      · refine ⟨rfl, ?_⟩
        cases read : declaration limit rest with
        | none => exact stays
        | some pair =>
          obtain ⟨ends, less⟩ := shorter read
          refine ⟨ends.trans wordEnds, ?_⟩
          simp only [Option.elim, statementsWeight_withMerge]
          omega

theorem statements_advances (room : Room size limit other) {count otherCount : Nat}
    (counts : Room size count otherCount) :
    Advances size (total statementTerms) (statements limit count)
      (statements other otherCount) := by
  induction size generalizing count otherCount with
  | zero =>
    intro cs inside
    obtain rfl := List.eq_nil_of_length_eq_zero (Nat.le_zero.mp inside)
    have none (limit count : Nat) : statements limit count [] = .ok ([], []) := by
      have word := (mergeWord_takes.together : Together 0 _ _ _).nil fun _ => Nat.one_pos
      have declared := (declaration_together (.refl 0 limit)).nil fun _ =>
        Nat.add_pos_left Nat.one_pos _
      cases count with
      | zero => rfl
      | succ count =>
        have start : statement limit [] = .ok (none, []) := by
          simp [statement, attempt, word.1, declared.1]
        simp only [statements, Bind.bind, StateT.bind, start, Except.bind]
        rfl
    rw [none, none]
    exact ⟨rfl, List.suffix_refl [], Nat.le_refl 0⟩
  | succ size ih =>
    cases count with
    | zero =>
      rw [counts.zero]
      exact .pure rfl
    | succ count =>
      obtain ⟨otherCount, rfl, behind⟩ := counts.succ
      refine .bind (statement_advances room) fun found smaller inside => ?_
      cases found with
      | none => exact .pure rfl
      | some found =>
        simp only [Option.elim, statementsWeight] at inside ⊢
        have further := ih (room.within (Nat.le_succ size)) behind
        refine .bind (further.within (by omega)) fun rest _ _ => .pure ?_
        rw [total_append]
        omega

/-- A block that is passed over takes at least its closing brace. -/
theorem skipBlock_advances (room : Room (size + 1) limit other) (depth : Nat) :
    Advances size (fun _ => 1) (skipBlock limit depth) (skipBlock other depth) := by
  induction limit generalizing size other depth with
  | zero =>
    rw [room.zero]
    exact fun cs _ => ⟨rfl, List.suffix_refl cs⟩
  | succ limit ih =>
    obtain ⟨other, rfl, behind⟩ := room.succ
    intro cs inside
    have skipped := skip_suffix cs
    -- Whatever is passed over, the rest of the block is behind it.
    have next {rest : List Char} (depth : Nat) (ends : rest <:+ cs) (less : rest.length < cs.length) :
        skipBlock limit depth rest = skipBlock other depth rest ∧
          Stays (fun _ => 1) cs (skipBlock limit depth rest) := by
      obtain ⟨same, stays⟩ := ih (behind.within (by omega)) depth (Nat.le_refl rest.length)
      exact ⟨same, stays.behind ends fun _ => by omega⟩
    simp only [skipBlock]
    cases start : skip cs with
    | nil => exact ⟨rfl, List.nil_suffix⟩
    | cons c tail =>
      rw [start] at skipped
      have ends := (List.suffix_cons c tail).trans skipped
      have less : tail.length < cs.length := skipped.length_le
      split
      · next same => cases same
      · next rest same =>
        -- A string is passed over as a whole.
        cases same
        split
        · next read =>
          obtain ⟨readEnds, readLess⟩ := stringFrom_shorter read
          exact next depth (readEnds.trans ends) (by omega)
        · exact ⟨rfl, List.nil_suffix⟩
      · next rest same => cases same; exact next (depth + 1) ends less
      · next rest same =>
        cases same
        split
        · exact ⟨rfl, ends, less⟩
        · exact next (depth - 1) ends less
      · next rest _ _ _ same => cases same; exact next depth ends less

theorem sectionFlag_takes : Takes (fun _ => 1) sectionFlag :=
  Together.takes fun _ => .bind ident_takes.together fun word _ _ => by
    cases Text.lookupName sectionFlags word with
    | none => exact .failure
    | some flag => exact .pure rfl

/-- The word for the kind of a section takes something. -/
theorem sectionKind_advances : Advances size (fun _ => 1) sectionKind sectionKind := by
  refine fun cs _ => ⟨rfl, ?_⟩
  rw [sectionKind]
  split
  · exact skip_suffix cs
  · next read =>
    split
    · exact ident_takes read
    · exact List.suffix_refl cs

theorem parts_advances {left right : Parse Section}
    (part : Advances size (fun _ => 1) left right) (room : Room (size + 1) limit other) :
    Advances size (fun _ => 0) (parts left limit) (parts right other) := by
  induction limit generalizing size other with
  | zero =>
    rw [room.zero]
    exact fun cs _ => ⟨rfl, List.suffix_refl cs⟩
  | succ limit ih =>
    obtain ⟨other, rfl, behind⟩ := room.succ
    refine .bind (Advances.attempt (punct_takes _).together).light fun closed smaller inside => ?_
    cases closed with
    | some _ => exact .pure rfl
    | none =>
      refine .bind (part.within inside) fun _ fewer less => ?_
      exact .bind (ih (part.within (by omega)) (behind.within (by omega))) fun _ _ _ => .pure rfl

/-- A section takes at least the word for its kind, its opening brace and its include terms. -/
theorem readSection_advances (room : Room (size + 1) limit other) :
    Advances size (fun part => 2 + termCount part) (readSection limit) (readSection other) := by
  induction limit generalizing size other with
  | zero =>
    rw [room.zero]
    exact fun cs _ => ⟨rfl, List.suffix_refl cs⟩
  | succ limit ih =>
    obtain ⟨other, rfl, behind⟩ := room.succ
    have flags := (sectionFlag_takes.together.many behind).light
    refine .bind (Advances.attempt flags).light fun _ _ _ => ?_
    refine .bind sectionKind_advances fun kind fewer _ => ?_
    refine .bind (Advances.attempt stringLiteral_takes.together).light fun _ _ _ => ?_
    refine .bind (Advances.expect _) fun _ smaller inside => ?_
    have ending (part : Section) (weight : Section → Nat) (nothing : weight part = 0) {size : Nat} :
        Advances size weight (do let _ ← attempt (punct ';'); return part)
          (do let _ ← attempt (punct ';'); return part) :=
      .bind (Advances.attempt (punct_takes ';').together).light fun _ _ _ => .pure nothing
    have less : smaller + 1 ≤ size := by omega
    -- What stands inside the braces depends on the kind; only statements have include terms.
    dsimp only
    split
    · refine .bind (parts_advances ((ih (behind.within less)).mono (Nat.le_refl _) fun _ => by omega)
        (behind.within less)) fun _ _ _ => ?_
      rw [pure_bind]
      exact ending _ _ rfl
    · split
      · refine .bind (skipBlock_advances (behind.within less) 1) fun _ _ _ => ?_
        rw [pure_bind]
        exact ending _ _ rfl
      · have inner := behind.within (Nat.le_of_lt less)
        refine .bind (statements_advances inner inner) fun found _ _ => ?_
        refine .bind (Advances.expect _).light fun _ _ _ => ?_
        rw [pure_bind]
        refine ending _ _ ?_
        rw [termCount_eq]
        dsimp only
        omega

/-- Sections are read alike with any limits beyond the length of the text. What they weigh is no
more than the text is long, and a fault lies at an end of it. -/
theorem sections_advance (room : Room (size + 1) limit other) {cs : List Char}
    (inside : cs.length ≤ size) :
    sections limit cs = sections other cs ∧
      (∀ found, sections limit cs = .ok found →
        total (fun part => 2 + termCount part) found ≤ cs.length) ∧
      ∀ fault, sections limit cs = .error fault → fault.rest <:+ cs := by
  induction limit generalizing size other cs with
  | zero =>
    rw [room.zero]
    refine ⟨rfl, nofun, fun fault found => ?_⟩
    cases found
    exact List.suffix_refl cs
  | succ limit ih =>
    obtain ⟨other, rfl, behind⟩ := room.succ
    have skipped := skip_suffix cs
    simp only [sections]
    cases start : skip cs with
    | nil => exact ⟨rfl, fun found same => by cases same; exact Nat.zero_le _, nofun⟩
    | cons c tail =>
      rw [start] at skipped
      obtain ⟨same, stays⟩ := readSection_advances room (Nat.le_trans skipped.length_le inside)
      dsimp only
      rw [← same]
      cases read : readSection (limit + 1) (c :: tail) with
      | error fault =>
        rw [read] at stays
        refine ⟨rfl, nofun, fun other found => ?_⟩
        cases found
        exact stays.trans skipped
      | ok pair =>
        obtain ⟨part, left⟩ := pair
        rw [read] at stays
        obtain ⟨ends, less⟩ := stays
        have shorter := skipped.length_le
        dsimp only at less
        obtain ⟨further, weighs, faults⟩ :=
          ih (behind.within (by omega)) (Nat.le_refl left.length)
        simp only [bind, Except.bind]
        rw [← further]
        cases rest : sections limit left with
        | error fault =>
          refine ⟨rfl, nofun, fun other found => ?_⟩
          cases found
          exact (faults fault rest).trans (ends.trans skipped)
        | ok others =>
          refine ⟨rfl, fun found same => ?_, nofun⟩
          cases same
          have more := weighs others rest
          rw [total_cons]
          omega

theorem parse_weighs (read : parse text = .ok found) :
    total (fun part => 2 + termCount part) found ≤ text.toList.length := by
  have ⟨_, weighs, _⟩ := sections_advance (.refl _ (text.toList.length + 1)) (Nat.le_refl text.toList.length)
  simp only [parse] at read
  split at read
  · next parsed =>
    cases read
    exact weighs _ parsed
  · cases read

/-- A source text has at least two characters for each of its sections. -/
theorem parse_length (read : parse text = .ok found) :
    2 * found.length ≤ text.toList.length := by
  have weighs := parse_weighs read
  rw [total_add, total_const] at weighs
  omega

/-- A source text has no more include terms than characters. -/
theorem parse_terms (read : parse text = .ok found) :
    total termCount found ≤ text.toList.length := by
  have weighs := parse_weighs read
  rw [total_add] at weighs
  omega

end Sections

end Source

end Xkb
