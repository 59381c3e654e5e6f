import Xkb.Proofs.Source.Spelling

/-! Expressions written out with one space between tokens and no more parentheses than needed are
read back as they were. -/

namespace Xkb

open Source (isIdent IsVisibleName)

namespace BinaryOp

/-- How tightly an operator holds its operands together; an assignment is the loosest. -/
def precedence : BinaryOp → Nat
  | assign => 0
  | add | subtract => 1
  | multiply | divide => 2

/-- What the left operand has to hold together by to stand without parentheses. -/
def leftPrecedence : BinaryOp → Nat
  | assign => 1
  | op => op.precedence

/-- What the right operand has to hold together by to stand without parentheses. -/
def rightPrecedence : BinaryOp → Nat
  | assign => 0
  | op => op.precedence + 1

end BinaryOp

namespace Expr

/-- How tightly an expression holds together: by its outermost operator, or more than by any. -/
def precedence : Expr → Nat
  | binary op _ _ => op.precedence
  | unary _ _ => 3
  | _ => 4

/-- Tokens with parentheses around them, unless the expression holds together tightly enough. -/
def wrapped (least : Nat) (expr : Expr) (tokens : List String) : List String :=
  if expr.precedence < least then "(" :: tokens ++ [")"] else tokens

mutual

/-- The tokens that an expression is written with. -/
def tokens : Expr → List String
  | boolean value => [toString value]
  | integer value => [toString value.toInt]
  | text value => [Text.quoted value]
  | keyName name => [name.label]
  | ident name => [name]
  | fieldRef element field => [element, ".", field]
  | arrayRef none field index => field :: "[" :: index.tokens ++ ["]"]
  | arrayRef (some element) field index => element :: "." :: field :: "[" :: index.tokens ++ ["]"]
  | call name args => name :: "(" :: List.intercalate [","] (listTokens args) ++ [")"]
  | keysyms names => "[" :: List.intercalate [","] (names.map ([·])) ++ ["]"]
  | calls list => "[" :: List.intercalate [","] (listTokens list) ++ ["]"]
  | binary op left right =>
    wrapped op.leftPrecedence left left.tokens
      ++ String.singleton (Source.binarySign op) :: wrapped op.rightPrecedence right right.tokens
  | unary op operand => String.singleton (Source.unarySign op) :: wrapped 3 operand operand.tokens

/-- The tokens of each expression of a list. -/
def listTokens : List Expr → List (List String)
  | [] => []
  | expr :: rest => expr.tokens :: listTokens rest

end

/-- An expression with one space between its tokens. -/
def render (expr : Expr) : String :=
  " ".intercalate expr.tokens

/-- An expression that has a written form. -/
inductive Writable : Expr → Prop
  | integer {value : Int64} (natural : 0 ≤ value) : Writable (.integer value)
  | text (value : String) : Writable (.text value)
  | keyName {name : KeyName} (visible : IsVisibleName name) : Writable (.keyName name)
  | ident {name : String} (identifier : isIdent name = true) : Writable (.ident name)
  | fieldRef {element field : String} (elementIdentifier : isIdent element = true)
      (fieldIdentifier : isIdent field = true) : Writable (.fieldRef element field)
  | arrayRef {element : Option String} {field : String} {index : Expr}
      (elementIdentifier : ∀ name ∈ element, isIdent name = true)
      (fieldIdentifier : isIdent field = true) (inner : Writable index) :
      Writable (.arrayRef element field index)
  | call {name : String} {args : List Expr} (identifier : isIdent name = true)
      (inner : ∀ arg ∈ args, Writable arg) : Writable (.call name args)
  | keysyms {names : List String} (identifiers : ∀ name ∈ names, isIdent name = true) :
      Writable (.keysyms names)
  | calls {list : List Expr} (some : list ≠ [])
      (allCalls : ∀ item ∈ list, ∃ name args, item = .call name args)
      (inner : ∀ item ∈ list, Writable item) : Writable (.calls list)
  | binary {op : BinaryOp} {left right : Expr} (first : Writable left) (second : Writable right) :
      Writable (.binary op left right)
  | unary {op : UnaryOp} {operand : Expr} (inner : Writable operand) :
      Writable (.unary op operand)

end Expr

namespace Source

/-- A text is read as an expression that holds together at least so tightly. -/
def SpellsAt : Nat → List Char → Expr → Prop
  | 0 => Spells
  | 1 => SpellsSum
  | 2 => SpellsProduct
  | 3 => SpellsUnary
  | _ => SpellsOperand

variable {text : List Char} {expr : Expr}

theorem SpellsAt.mono {least most : Nat} (fewer : least ≤ most) (spells : SpellsAt most text expr) :
    SpellsAt least text expr := by
  -- One level at a time, each rule of the grammar has the next tighter one as its shortest form.
  have step : ∀ level, SpellsAt (level + 1) text expr → SpellsAt level text expr := by
    intro level tighter
    match level with
    | 0 => exact .sum tighter
    | 1 => exact .product tighter
    | 2 => exact .unary tighter
    | 3 => exact .operand tighter
    | _ + 4 => exact tighter
  induction fewer with
  | refl => exact spells
  | step _ ih => exact ih (step _ spells)

/-- Tokens with a space in front of each. -/
def spaced (tokens : List String) : List Char :=
  tokens.flatMap fun token => ' ' :: token.toList

@[simp] theorem spaced_nil : spaced [] = [] :=
  rfl

@[simp] theorem spaced_cons (token : String) (tokens : List String) :
    spaced (token :: tokens) = ' ' :: token.toList ++ spaced tokens :=
  rfl

@[simp] theorem spaced_append (left right : List String) :
    spaced (left ++ right) = spaced left ++ spaced right := by
  simp [spaced]

theorem spaced_intercalate (lists : List (List String)) :
    spaced (List.intercalate [","] lists) = List.intercalate [' ', ','] (lists.map spaced) := by
  induction lists with
  | nil => rfl
  | cons first others ih =>
    cases others with
    | nil => simp
    | cons second others =>
      rw [List.intercalate_cons_cons, spaced_append, spaced_append, ih]
      simp only [List.map_cons, List.intercalate_cons_cons]
      rfl

theorem tokens_ne_nil (expr : Expr) : expr.tokens ≠ [] := by
  cases expr with
  | arrayRef element field index => cases element <;> simp [Expr.tokens]
  | _ => simp [Expr.tokens]

theorem spaced_tokens (expr : Expr) : ' ' :: expr.render.toList = spaced expr.tokens := by
  rw [Expr.render, String.toList_intercalate]
  cases spelled : expr.tokens with
  | nil => exact absurd spelled (tokens_ne_nil expr)
  | cons first others =>
    rw [List.map_cons, intercalate_cons, List.flatMap_map]
    rfl

theorem Token.spaced {c : Char} (solid : isSolid c = true) (chars : List Char) :
    Token (c :: chars) (' ' :: c :: chars) :=
  (Token.plain solid chars).space

theorem spellsAt_wrapped {least : Nat} (small : least ≤ 4)
    (spells : SpellsAt expr.precedence (spaced expr.tokens) expr) :
    SpellsAt least (spaced (Expr.wrapped least expr expr.tokens)) expr := by
  unfold Expr.wrapped
  split
  · have operand := SpellsOperand.paren (Token.spaced (by decide) []) (Token.spaced (by decide) [])
      (SpellsAt.mono (Nat.zero_le _) spells)
    have written : spaced ("(" :: expr.tokens ++ [")"])
        = [' ', '('] ++ (spaced expr.tokens ++ [' ', ')']) := by simp
    rw [written]
    exact SpellsAt.mono small operand
  · exact SpellsAt.mono (by omega) spells

/-- The text of an expression is read as the expression, and that of a call also where only calls
are read. -/
structure Spelled (expr : Expr) : Prop where
  level : SpellsAt expr.precedence (spaced expr.tokens) expr
  call : ∀ name args, expr = .call name args → ∀ limit, (spaced expr.tokens).length ≤ limit →
    Reads [] (call (expression limit) limit) (spaced expr.tokens) expr

theorem Spelled.operand (spells : SpellsOperand text expr) (written : spaced expr.tokens = text)
    (tight : expr.precedence = 4) (other : ∀ name args, expr ≠ .call name args) : Spelled expr := by
  refine ⟨?_, fun name args same => absurd same (other name args)⟩
  rw [written, tight]
  exact spells

theorem listTokens_eq (list : List Expr) : Expr.listTokens list = list.map Expr.tokens := by
  induction list with
  | nil => rfl
  | cons expr rest ih => rw [Expr.listTokens, ih, List.map_cons]

theorem forall₂_spaced {relation : List Char → Expr → Prop} {list : List Expr}
    (each : ∀ expr ∈ list, relation (spaced expr.tokens) expr) :
    List.Forall₂ relation ((Expr.listTokens list).map spaced) list := by
  rw [listTokens_eq, List.map_map]
  induction list with
  | nil => exact .nil
  | cons expr rest ih =>
    exact .cons (each expr (by simp)) (ih fun other member => each other (by simp [member]))

theorem toList_toString_natural {value : Int64} (natural : 0 ≤ value) :
    (toString value.toInt).toList = Nat.toDigits 10 value.toInt.toNat ∧
      value.toInt.toNat ≤ largestInteger ∧ Int64.ofNat value.toInt.toNat = value := by
  have positive : 0 ≤ value.toInt := Int64.le_iff_toInt_le.mp natural
  have small : value.toInt < 2 ^ 63 := Int64.toInt_lt value
  obtain ⟨number, same⟩ := Int.eq_ofNat_of_zero_le positive
  refine ⟨?_, ?_, ?_⟩
  · rw [same]
    exact Nat.toList_repr
  · rw [largestInteger]
    omega
  · calc Int64.ofNat value.toInt.toNat = Int64.ofInt value.toInt := by
          rw [same]; rfl
      _ = value := Int64.ofInt_toInt value

theorem spaced_binary (op : BinaryOp) (left right : Expr) :
    spaced (Expr.binary op left right).tokens
      = spaced (Expr.wrapped op.leftPrecedence left left.tokens) ++ [' ', binarySign op]
        ++ spaced (Expr.wrapped op.rightPrecedence right right.tokens) := by
  simp [Expr.tokens]

theorem spaced_wrapped (least : Nat) (expr : Expr) :
    ∃ more, spaced (Expr.wrapped least expr expr.tokens) = ' ' :: more := by
  unfold Expr.wrapped
  split
  · exact ⟨_, by rw [List.cons_append, spaced_cons, List.cons_append]⟩
  · exact ⟨_, (spaced_tokens expr).symm⟩

theorem spellsAt_binary {op : BinaryOp} {left right : Expr} (first : Spelled left)
    (second : Spelled right) :
    SpellsAt op.precedence (spaced (Expr.binary op left right).tokens) (.binary op left right) := by
  rw [spaced_binary]
  have leftSpells : ∀ least ≤ 4, SpellsAt least (spaced (Expr.wrapped least left left.tokens)) left :=
    fun least small => spellsAt_wrapped small first.level
  have rightSpells : ∀ least ≤ 4,
      SpellsAt least (spaced (Expr.wrapped least right right.tokens)) right :=
    fun least small => spellsAt_wrapped small second.level
  cases op with
  | assign =>
    exact Spells.assign (leftSpells 1 (by decide)) (Token.spaced (by decide) [])
      (rightSpells 0 (by decide))
  | add =>
    exact SpellsSum.join (.inl rfl) (leftSpells 1 (by decide))
      (.token (Token.spaced (by decide) []) _) (rightSpells 2 (by decide))
  | subtract =>
    exact SpellsSum.join (.inr rfl) (leftSpells 1 (by decide))
      (.token (Token.spaced (by decide) []) _) (rightSpells 2 (by decide))
  | multiply =>
    exact SpellsProduct.join (.inl rfl) (leftSpells 2 (by decide))
      (.token (Token.spaced (by decide) []) _) (rightSpells 3 (by decide))
  | divide =>
    -- The slash starts no comment, since a space comes after it.
    refine SpellsProduct.join (.inr rfl) (leftSpells 2 (by decide)) (fun rest => ?_)
      (rightSpells 3 (by decide))
    obtain ⟨more, written⟩ := spaced_wrapped BinaryOp.divide.rightPrecedence right
    rw [written]
    exact (skip_of_space (by decide) _).trans (skip_slash (by decide) _)

theorem spelled_of_writable (writable : expr.Writable) : Spelled expr := by
  have comma : Token [','] [' ', ','] := Token.spaced (by decide) []
  have opened : Token ['['] [' ', '['] := Token.spaced (by decide) []
  have closed : Token [']'] [' ', ']'] := Token.spaced (by decide) []
  have dot : Token ['.'] [' ', '.'] := Token.spaced (by decide) []
  induction writable with
  | @integer value natural =>
    obtain ⟨written, fits, same⟩ := toList_toString_natural natural
    have spells := SpellsOperand.decimal fits (Token.decimal value.toInt.toNat).space
    rw [same] at spells
    exact .operand spells (by simp only [Expr.tokens, spaced_cons, spaced_nil, written,
      List.append_nil]) rfl (by simp)
  | text value =>
    exact .operand (.text (Token.quoted value).space) (by simp [Expr.tokens]) rfl (by simp)
  | @keyName name visible =>
    exact .operand (.keyName visible (Token.label name).space) (by simp [Expr.tokens]) rfl (by simp)
  | ident identifier =>
    exact .operand (.ident (Named.plain identifier).space) (by simp [Expr.tokens]) rfl (by simp)
  | fieldRef elementIdentifier fieldIdentifier =>
    refine .operand (.fieldRef (Named.plain elementIdentifier).space dot
      (Named.plain fieldIdentifier).space) ?_ rfl (by simp)
    simp [Expr.tokens]
  | @arrayRef element field index elementIdentifier fieldIdentifier inner ih =>
    have spells : Spells (spaced index.tokens) index := SpellsAt.mono (Nat.zero_le _) ih.level
    cases element with
    | none =>
      refine .operand (.arrayRef (Named.plain fieldIdentifier).space opened closed spells) ?_ rfl
        (by simp)
      simp [Expr.tokens]
    | some element =>
      refine .operand (.fieldArrayRef (Named.plain (elementIdentifier element rfl)).space dot
        (Named.plain fieldIdentifier).space opened closed spells) ?_ rfl (by simp)
      simp [Expr.tokens]
  | @call name args identifier inner ih =>
    have each : List.Forall₂ Spells ((Expr.listTokens args).map spaced) args :=
      forall₂_spaced fun arg member => SpellsAt.mono (Nat.zero_le _) (ih arg member).level
    have written : spaced (Expr.call name args).tokens = ' ' :: name.toList ++ ([' ', '('] ++
        (List.intercalate [' ', ','] ((Expr.listTokens args).map spaced) ++ [' ', ')'])) := by
      simp [Expr.tokens, spaced_intercalate]
    have open' : Token ['('] [' ', '('] := Token.spaced (by decide) []
    have close' : Token [')'] [' ', ')'] := Token.spaced (by decide) []
    refine ⟨?_, fun _ _ _ limit room => ?_⟩
    · rw [written]
      exact SpellsOperand.call (Named.plain identifier).space open' close' comma each
    · rw [written] at room ⊢
      refine call_reads (Named.plain identifier).space open' close' comma each ?_
      simp only [List.length_append] at room ⊢
      omega
  | @keysyms names identifiers =>
    have each : List.Forall₂ (fun word name => Named name word)
        (names.map fun name => ' ' :: name.toList) names := by
      rw [List.forall₂_map_left_iff, List.forall₂_same]
      exact fun name member => (Named.plain (identifiers name member)).space
    refine .operand (.keysyms opened closed comma each) ?_ rfl (by simp)
    simp [Expr.tokens, spaced_intercalate, Function.comp_def]
  | @calls list some allCalls inner ih =>
    have each : List.Forall₂ (fun text expr => ∀ limit, text.length ≤ limit →
        Reads [] (call (expression limit) limit) text expr)
        ((Expr.listTokens list).map spaced) list := forall₂_spaced fun item member => by
      obtain ⟨name, args, same⟩ := allCalls item member
      exact (ih item member).call name args same
    refine .operand (.calls opened closed comma ?_ each) ?_ rfl (by simp)
    · cases list with
      | nil => exact absurd rfl some
      | cons first others => simp [Expr.listTokens]
    · simp [Expr.tokens, spaced_intercalate]
  | @binary op left right first second ihFirst ihSecond =>
    exact ⟨spellsAt_binary ihFirst ihSecond, by simp⟩
  | @unary op operand inner ih =>
    refine ⟨?_, by simp⟩
    have token : Token [unarySign op] [' ', unarySign op] :=
      Token.spaced (by cases op <;> decide) []
    have written : spaced (Expr.unary op operand).tokens = [' ', unarySign op] ++
        spaced (Expr.wrapped 3 operand operand.tokens) := by simp [Expr.tokens]
    have spells : SpellsAt 3 (spaced (Expr.wrapped 3 operand operand.tokens)) operand :=
      spellsAt_wrapped (by decide) ih.level
    rw [written]
    exact SpellsUnary.operator token spells

/-- An expression that is written out is read back as it was, and the text behind it is left. -/
theorem expression_render {expr : Expr} (writable : expr.Writable) {rest : List Char}
    (ends : rest.head? = some ';') {limit : Nat}
    (room : (expr.render.toList ++ rest).length < limit) :
    expression limit (expr.render.toList ++ rest) = some (expr, rest) := by
  obtain ⟨more, rfl⟩ : ∃ more, rest = ';' :: more := by
    cases rest with
    | nil => simp at ends
    | cons c more => exact ⟨more, by simpa using ends⟩
  have spells : Spells (' ' :: expr.render.toList) expr := by
    rw [spaced_tokens]
    exact SpellsAt.mono (Nat.zero_le _) (spelled_of_writable writable).level
  have clear : Clear exprMarks (';' :: more) :=
    Clear.of_skip (skip_of_solid (by decide) more) (by decide) (by decide)
  simp only [List.length_append, List.length_cons] at room
  -- The space that the first token has in front makes no difference.
  calc expression limit (expr.render.toList ++ ';' :: more)
      = expression limit (skip (' ' :: (expr.render.toList ++ ';' :: more))) := by
        rw [skip_of_space (by decide), expression_skipsBlanks]
    _ = expression limit (' ' :: expr.render.toList ++ ';' :: more) :=
        expression_skipsBlanks limit _
    _ = some (expr, ';' :: more) := spells limit (by simp; omega) _ clear

/-- A difference on the right of a difference and a sum under a prefix keep their parentheses. -/
theorem expression_render_nested :
    let expr : Expr := .binary .assign (.arrayRef (some "a") "b" (.integer 1))
      (.binary .subtract (.unary .negate (.binary .add (.ident "x") (.unary .plus (.integer 2))))
        (.binary .subtract (.text "\"") (.call "F" [.keyName (.ofString "ESC"), .calls
          [.call "G" []]])))
    expr.render = "a . b [ 1 ] = - ( x + + 2 ) - ( \"\\\"\" - F ( <ESC> , [ G ( ) ] ) )" ∧
      expression 100 (expr.render.toList ++ "; x".toList) = some (expr, "; x".toList) := by
  have visible : IsVisibleName (.ofString "ESC") :=
    ⟨"ESC".toList, rfl, by decide, by decide, List.all_eq_true.mp (by decide)⟩
  refine ⟨by decide +kernel, expression_render ?_ (by decide) (by decide +kernel)⟩
  refine .binary (.arrayRef (by simp; decide) (by decide) (.integer (by decide))) (.binary (.unary
    (.binary (.ident (by decide)) (.unary (.integer (by decide))))) (.binary (.text _)
    (.call (by decide) ?_)))
  intro arg member
  rcases List.mem_pair.mp member with rfl | rfl
  · exact .keyName visible
  · exact .calls (by simp) (by simp) (by simpa using .call (by decide) (by simp))

end Source

end Xkb
