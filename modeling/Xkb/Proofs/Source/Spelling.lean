import Mathlib.Data.List.Forall2
import Xkb.Proofs.Source.Progress
import Xkb.Proofs.Source.Tokens

/-! How expressions are spelled: for each rule of the grammar, a text put together from the texts
of the parts is read as the expression put together from the parts. Blanks may stand in front of
every token, and the limit on repetitions only has to be beyond the length of the text. -/

namespace Xkb.Source

variable {α β : Type}

/-- A reader finds a value in a text and leaves what comes after, if that is clear of the marks. -/
def Reads (marks : List Char) (reader : Scan α) (text : List Char) (found : α) : Prop :=
  ∀ rest, Clear marks rest → reader (text ++ rest) = some (found, rest)

theorem Token.length_pos {c : Char} {chars text : List Char} (token : Token (c :: chars) text) :
    0 < text.length := by
  cases text with
  | nil =>
    have := token []
    simp [skip, skipFrom] at this
  | cons first more => simp

section Lists

variable {item : Scan α} {marks comma : List Char}

/-- Joined texts are the first one and then each of the others behind a comma. -/
theorem intercalate_cons (comma first : List Char) (others : List (List Char)) :
    List.intercalate comma (first :: others) = first ++ others.flatMap (comma ++ ·) := by
  induction others generalizing first with
  | nil => simp
  | cons second others ih => rw [List.intercalate_cons_cons, ih]; simp

variable {texts : List (List Char)}

theorem length_le_intercalate {text : List Char} (member : text ∈ texts) :
    text.length ≤ (List.intercalate comma texts).length := by
  induction texts with
  | nil => simp at member
  | cons first others ih =>
    cases others with
    | nil => simp_all
    | cons second others =>
      rw [List.intercalate_cons_cons, List.length_append, List.length_append]
      rcases List.mem_cons.mp member with rfl | later
      · omega
      · have := ih later
        omega

theorem length_le_flatMap {c : Char} (token : Token [c] comma) (texts : List (List Char)) :
    texts.length ≤ (texts.flatMap (comma ++ ·)).length := by
  have positive := token.length_pos
  induction texts with
  | nil => simp
  | cons text others ih =>
    simp only [List.flatMap_cons, List.length_append, List.length_cons]
    omega

variable {rest : List Char} {values : List α} {limit : Nat}

theorem clear_behind_item (token : Token [','] comma) (unmarked : ',' ∉ marks)
    (clear : Clear marks rest) (texts : List (List Char)) :
    Clear marks (texts.flatMap (comma ++ ·) ++ rest) := by
  cases texts with
  | nil => exact clear
  | cons text texts =>
    simp only [List.flatMap_cons, List.append_assoc]
    exact Clear.token token (by decide) unmarked

theorem many_behind_commas (each : List.Forall₂ (Reads marks item) texts values)
    (token : Token [','] comma) (unmarked : ',' ∉ marks) (room : texts.length ≤ limit)
    (clear : Clear marks rest) (ends : punct ',' rest = none) :
    many (punct ',' *> item) limit (texts.flatMap (comma ++ ·) ++ rest) = some (values, rest) := by
  induction each generalizing limit with
  | nil =>
    cases limit with
    | zero => rfl
    | succ limit =>
      exact bind_of_some (optional_of_none (seqRight_of_none ends)) rfl
  | @cons text value others values read _ ih =>
    cases limit with
    | zero => simp at room
    | succ limit =>
      have follows := clear_behind_item token unmarked clear others
      have head : (punct ',' *> item) (comma ++ (text ++ (others.flatMap (comma ++ ·) ++ rest)))
          = some (value, others.flatMap (comma ++ ·) ++ rest) :=
        seqRight_of_some (punct_token token _) (read _ follows)
      simp only [List.flatMap_cons, List.append_assoc]
      refine bind_of_some (optional_of_some head) ?_
      exact bind_of_some (ih (by simpa using room)) rfl

theorem separatedSome_reads (each : List.Forall₂ (Reads marks item) texts values)
    (some : texts ≠ []) (token : Token [','] comma) (unmarked : ',' ∉ marks)
    (room : texts.length ≤ limit + 1) (clear : Clear marks rest) (ends : punct ',' rest = none) :
    separatedSome item limit (List.intercalate comma texts ++ rest) = .some (values, rest) := by
  cases each with
  | nil => exact absurd rfl some
  | @cons text value others values read each =>
    have follows := clear_behind_item token unmarked clear others
    rw [intercalate_cons, List.append_assoc]
    refine bind_of_some (read _ follows) ?_
    have tail := many_behind_commas each token unmarked (by simpa using room) clear ends
    exact bind_of_some tail rfl

end Lists

section Chains

variable {operator : Scan BinaryOp} {operand : Scan Expr} {marks : List Char} {limit : Nat}

/-- A text starts a chain of operands: reading it goes on right behind it, with what it denotes on
the left and some of the operators used up. -/
def StartsChain (marks : List Char) (operator : Scan BinaryOp) (operand : Scan Expr) (limit : Nat)
    (text : List Char) (expr : Expr) : Prop :=
  ∃ used, used < text.length ∧ ∀ rest, Clear marks rest →
    (operand >>= chain operator operand limit) (text ++ rest)
      = chain operator operand (limit - used) expr rest

namespace StartsChain

variable {expr : Expr}

theorem single {text : List Char} (read : Reads marks operand text expr)
    (takes : Takes (fun _ => 1) operand) : StartsChain marks operator operand limit text expr := by
  have positive := (takes (read [] Clear.nil)).2
  refine ⟨0, by simp at positive; omega, fun rest clear => ?_⟩
  exact bind_of_some (read rest clear) rfl

theorem join {left sign right : List Char} {first second : Expr} {op : BinaryOp}
    (start : StartsChain marks operator operand limit left first)
    (follows : ∀ rest, Clear marks (sign ++ (right ++ rest)))
    (joins : ∀ rest, operator (sign ++ (right ++ rest)) = some (op, right ++ rest))
    (read : Reads marks operand right second) (some : 0 < sign.length)
    (room : (left ++ sign ++ right).length ≤ limit) :
    StartsChain marks operator operand limit (left ++ sign ++ right) (.binary op first second) := by
  obtain ⟨used, fewer, goes⟩ := start
  simp only [List.length_append] at room
  refine ⟨used + 1, by simp only [List.length_append]; omega, fun rest clear => ?_⟩
  -- One more operator is left than is used here, since each takes a character of the text.
  obtain ⟨more, left⟩ : ∃ more, limit - used = more + 1 := ⟨limit - used - 1, by omega⟩
  have same : limit - (used + 1) = more := by omega
  rw [List.append_assoc, List.append_assoc, goes _ (follows rest), left, same]
  refine bind_of_some (optional_of_some (joins rest)) ?_
  exact bind_of_some (read rest clear) rfl

theorem reads {more text : List Char} (start : StartsChain marks operator operand limit text expr)
    (room : text.length ≤ limit) (subset : marks ⊆ more)
    (ends : ∀ rest, Clear more rest → operator rest = none) :
    Reads more (operand >>= chain operator operand limit) text expr := by
  obtain ⟨used, fewer, goes⟩ := start
  intro rest clear
  obtain ⟨left, some⟩ : ∃ left, limit - used = left + 1 := ⟨limit - used - 1, by omega⟩
  rw [goes rest (clear.mono subset), some]
  exact bind_of_some (optional_of_none (ends rest clear)) rfl

end StartsChain

end Chains

section Enclosing

variable {content : Scan α} {opening closing : Char} {found : α}

theorem enclosed_reads {opens text closes rest : List Char} (opened : Token [opening] opens)
    (closed : Token [closing] closes)
    (inside : content (text ++ (closes ++ rest)) = some (found, closes ++ rest)) :
    enclosed opening closing content (opens ++ (text ++ (closes ++ rest))) = some (found, rest) := by
  refine bind_of_some (punct_token opened _) ?_
  refine bind_of_some inside ?_
  exact bind_of_some (punct_token closed rest) rfl

theorem enclosed_opens (opening closing : Char) (content : Scan α) :
    Opens (· == opening) (enclosed opening closing content) :=
  (punct_opens opening).bind _

end Enclosing

section Operands

variable {expr : Scan Expr} {limit : Nat} {cs rest : List Char} {c : Char}

/-- What starts with none of the signs for other operands is a number, a list or a name. -/
theorem primary_unsigned {outcome : Option (Expr × List Char)} (start : skip cs = c :: rest)
    (unsigned : c ∉ ['(', '"', '<'])
    (ends : (Expr.integer <$> integer <|> bracketList expr limit <|> reference expr limit) cs
      = outcome) : primary expr limit cs = outcome := by
  simp only [List.mem_cons, List.not_mem_nil, or_false, not_or, ← beq_eq_false_iff_ne] at unsigned
  refine (enclosed_opens _ _ _).orElse_other start unsigned.1 ?_
  refine (stringLiteral_opens.map _).orElse_other start unsigned.2.1 ?_
  exact (keyName_opens.map _).orElse_other start unsigned.2.2 ends

theorem primary_reference (start : skip cs = c :: rest) (name : isIdentStart c = true) :
    primary expr limit cs = reference expr limit cs := by
  have noDigit : Text.isDigitOf 10 c = false := by
    cases digit : Text.isDigitOf 10 c with
    | false => rfl
    | true => rw [← name, isIdentStart_of_decimal digit]
  have other : ∀ d : Char, isIdentStart d = false → c ≠ d := by
    rintro d noName rfl
    rw [name] at noName
    cases noName
  have unsigned : c ∉ ['(', '"', '<'] := by
    simp [other '(' (by decide), other '"' (by decide), other '<' (by decide)]
  refine primary_unsigned start unsigned ?_
  refine (integer_opens.map _).orElse_other start noDigit ?_
  exact (enclosed_opens _ _ _).orElse_other start (beq_eq_false_iff_ne.mpr (other _ (by decide))) rfl

variable {found : Expr} {left : List Char}

theorem primary_bracket (start : skip cs = '[' :: rest)
    (list : bracketList expr limit cs = some (found, left)) :
    primary expr limit cs = some (found, left) :=
  primary_unsigned start (by decide)
    ((integer_opens.map _).orElse_other start (by decide) (orElse_of_some list))

theorem primary_integer {value : Int64} (number : integer cs = some (value, left)) :
    primary expr limit cs = some (.integer value, left) := by
  obtain ⟨c, rest, start, digit⟩ := integer_opens.starts number
  refine primary_unsigned start (fun sign => ?_) (orElse_of_some (map_of_some number))
  simp only [List.mem_cons, List.not_mem_nil, or_false] at sign
  rcases sign with rfl | rfl | rfl <;> exact absurd digit (by decide)

/-- Whether an operand without operators can start with a character. -/
def startsOperand (c : Char) : Bool :=
  c == '(' || (c == '"' || (c == '<' || (Text.isDigitOf 10 c || (c == '[' || isIdentStart c))))

theorem primary_opens (expr : Scan Expr) (limit : Nat) :
    Opens startsOperand (primary expr limit) :=
  (enclosed_opens _ _ _).orElse <| (stringLiteral_opens.map _).orElse <|
    (keyName_opens.map _).orElse <| (integer_opens.map _).orElse <|
      (enclosed_opens _ _ _).orElse (ident_opens.bind _)

/-- Whether a character is an operator in front of an operand. -/
def startsUnary (c : Char) : Bool :=
  c == '-' || (c == '+' || (c == '!' || c == '~'))

theorem unaryOperator_opens : Opens startsUnary unaryOperator :=
  ((punct_opens _).seqRight _).orElse <| ((punct_opens _).seqRight _).orElse <|
    ((punct_opens _).seqRight _).orElse ((punct_opens _).seqRight _)

theorem unaryOperator_of_primary (operand : primary expr limit cs = some (found, left)) :
    unaryOperator cs = none := by
  obtain ⟨c, rest, start, starts⟩ := (primary_opens expr limit).starts operand
  refine unaryOperator_opens.other start ?_
  cases sign : startsUnary c with
  | false => rfl
  | true =>
    simp only [startsUnary, Bool.or_eq_true, beq_iff_eq] at sign
    rcases sign with rfl | rfl | rfl | rfl <;> exact absurd starts (by decide)

/-- An expression starts with an operator or an operand. -/
theorem expression_opens (limit : Nat) :
    Opens (fun c => startsUnary c || startsOperand c) (expression limit) := by
  cases limit with
  | zero => exact fun _ _ => rfl
  | succ limit =>
    have operand := (primary_opens (expression limit) limit).bind fun found =>
      (pure found : Scan Expr)
    exact (((unaryOperator_opens.many_bind limit operand).bind _).bind _).bind _

end Operands

/-- The characters that carry on an operand. -/
def operandMarks : List Char :=
  ['(', '.', '[']

/-- The characters that carry on a product. -/
def productMarks : List Char :=
  '*' :: '/' :: operandMarks

/-- The characters that carry on a sum. -/
def sumMarks : List Char :=
  '+' :: '-' :: productMarks

/-- The characters that carry on an expression. -/
def exprMarks : List Char :=
  '=' :: sumMarks

/-- A text is read as an expression. -/
def Spells (text : List Char) (expr : Expr) : Prop :=
  ∀ limit, text.length < limit → Reads exprMarks (expression limit) text expr

/-- A text is read as an operand without operators. -/
def SpellsOperand (text : List Char) (expr : Expr) : Prop :=
  ∀ limit, text.length ≤ limit → Reads operandMarks (primary (expression limit) limit) text expr

section Operands

variable {word opens closes comma : List Char} {name : String} {limit : Nat}
  {texts : List (List Char)} {exprs : List Expr} {expr : Scan Expr}

/-- An expression is read between parentheses or brackets. -/
theorem Spells.enclosed {opening closing : Char} {text : List Char} {expr : Expr}
    (spells : Spells text expr) (opened : Token [opening] opens) (closed : Token [closing] closes)
    (apart : isIdentRest closing = false ∧ closing ∉ exprMarks)
    (room : opens.length + text.length ≤ limit) (rest : List Char) :
    enclosed opening closing (expression limit) (opens ++ (text ++ (closes ++ rest)))
      = some (expr, rest) := by
  have positive := opened.length_pos
  have clear : Clear exprMarks (closes ++ rest) := Clear.token closed apart.1 apart.2
  exact enclosed_reads opened closed (spells limit (by omega) _ clear)

/-- Items with commas between them are read up to what closes the list. -/
theorem separatedSome_closed {item : Scan α} {marks : List Char} {closing : Char} {values : List α}
    (closed : Token [closing] closes) (token : Token [','] comma)
    (apart : isIdentRest closing = false ∧ closing ≠ ',' ∧ closing ∉ marks ∧ ',' ∉ marks)
    (each : List.Forall₂ (Reads marks item) texts values) (some : texts ≠ [])
    (room : (List.intercalate comma texts).length ≤ limit) (rest : List Char) :
    separatedSome item limit (List.intercalate comma texts ++ (closes ++ rest))
      = .some (values, closes ++ rest) := by
  obtain ⟨plain, noComma, unmarked, commaFree⟩ := apart
  have count : texts.length ≤ limit + 1 := by
    cases texts with
    | nil => simp
    | cons text texts =>
      have := length_le_flatMap token texts
      rw [intercalate_cons, List.length_append] at room
      rw [List.length_cons]
      omega
  exact separatedSome_reads each some token commaFree count (Clear.token closed plain unmarked)
    (punct_other (closed rest) noComma)

theorem arguments_reads (opened : Token ['('] opens) (closed : Token [')'] closes)
    (token : Token [','] comma) (each : List.Forall₂ Spells texts exprs)
    (room : (opens ++ List.intercalate comma texts).length ≤ limit) (rest : List Char) :
    arguments (expression limit) limit
        (opens ++ (List.intercalate comma texts ++ (closes ++ rest)))
      = some (exprs, rest) := by
  refine enclosed_reads opened closed ?_
  have noComma : punct ',' (closes ++ rest) = none := punct_other (closed rest) (by decide)
  have items : separated (expression limit) limit
      (List.intercalate comma texts ++ (closes ++ rest)) = some (exprs, closes ++ rest) := by
    have positive := opened.length_pos
    rw [List.length_append] at room
    cases each with
    | nil =>
      -- Behind the opening parenthesis comes the closing one, which starts no argument.
      have none := (expression_opens limit).other (closed rest) (by decide)
      exact orElse_of_none (bind_of_none none) rfl
    | @cons text expr texts exprs first others =>
      have short : ∀ part ∈ text :: texts, part.length < limit := by
        intro part inside
        have : part.length ≤ (List.intercalate comma (text :: texts)).length :=
          length_le_intercalate inside
        omega
      have reads : List.Forall₂ (Reads exprMarks (expression limit)) (text :: texts)
          (expr :: exprs) := by
        have both := (List.forall₂_and_left _ _).mpr ⟨short, .cons first others⟩
        exact both.imp fun part expr spelled => spelled.2 limit spelled.1
      exact orElse_of_some
        (separatedSome_closed closed token (by decide) reads (by simp) (by omega) rest)
  refine bind_of_some items ?_
  exact bind_of_some (optional_of_none noComma) rfl

/-- A call is read wherever it stands. -/
theorem call_reads (named : Named name word) (opened : Token ['('] opens)
    (closed : Token [')'] closes) (token : Token [','] comma)
    (each : List.Forall₂ Spells texts exprs)
    (room : (opens ++ List.intercalate comma texts).length ≤ limit) :
    Reads [] (call (expression limit) limit)
      (word ++ (opens ++ (List.intercalate comma texts ++ closes))) (.call name exprs) := by
  intro rest _
  have clear : Clear ['.'] (opens ++ (List.intercalate comma texts ++ (closes ++ rest))) :=
    Clear.token opened (by decide) (by decide)
  simp only [List.append_assoc]
  refine bind_of_some (named.reads clear.apart) ?_
  exact bind_of_some (arguments_reads opened closed token each room rest) rfl

theorem reference_tail {cs : List Char} (named : Named name word) (clear : Clear ['('] cs) :
    reference expr limit (word ++ cs) = targetTail expr name cs := by
  refine bind_of_some (named.reads clear.apart) ?_
  have noCall : arguments expr limit cs = none := bind_of_none (punct_clear clear (by decide))
  exact bind_of_some (optional_of_none noCall) rfl

theorem primary_name {rest : List Char} (named : Named name word) (clear : Clear [] rest) :
    primary expr limit (word ++ rest) = reference expr limit (word ++ rest) := by
  obtain ⟨c, more, start, starts⟩ := ident_opens.starts (named.reads clear.apart)
  exact primary_reference start starts

section Tails

variable {expr : Scan Expr} {rest dot behind : List Char} {field : String}

theorem optional_field_none (clear : Clear ['.'] rest) :
    optional (punct '.' *> ident) rest = some (none, rest) :=
  optional_of_none (seqRight_of_none (punct_clear clear (by decide)))

theorem optional_field_some (token : Token ['.'] dot) (named : Named field behind)
    (clear : Clear [] rest) :
    optional (punct '.' *> ident) (dot ++ (behind ++ rest)) = some (some field, rest) :=
  optional_of_some (seqRight_of_some (punct_token token _) (named.reads clear.apart))

theorem optional_index_none (clear : Clear ['['] rest) :
    optional (enclosed '[' ']' expr) rest = some (none, rest) :=
  optional_of_none (bind_of_none (punct_clear clear (by decide)))

theorem targetTail_ident (clear : Clear ['.', '['] rest) :
    targetTail expr name rest = some (.ident name, rest) := by
  refine bind_of_some (optional_field_none (clear.mono (by simp))) ?_
  exact bind_of_some (optional_index_none (clear.mono (by simp))) rfl

theorem targetTail_field (token : Token ['.'] dot) (named : Named field behind)
    (clear : Clear ['['] rest) :
    targetTail expr name (dot ++ (behind ++ rest)) = some (.fieldRef name field, rest) := by
  refine bind_of_some (optional_field_some token named (clear.mono (by simp))) ?_
  exact bind_of_some (optional_index_none clear) rfl

variable {index : Expr} {cs : List Char}

theorem targetTail_index (clear : Clear ['.'] cs)
    (inside : enclosed '[' ']' expr cs = some (index, rest)) :
    targetTail expr name cs = some (.arrayRef none name index, rest) := by
  refine bind_of_some (optional_field_none clear) ?_
  exact bind_of_some (optional_of_some inside) rfl

theorem targetTail_field_index (token : Token ['.'] dot) (named : Named field behind)
    (clear : Clear [] cs) (inside : enclosed '[' ']' expr cs = some (index, rest)) :
    targetTail expr name (dot ++ (behind ++ cs)) = some (.arrayRef (some name) field index, rest) := by
  refine bind_of_some (optional_field_some token named clear) ?_
  exact bind_of_some (optional_of_some inside) rfl

end Tails

/-- Where a list of keysyms stands, no list of calls does: its first name has no arguments. -/
theorem calls_of_keysyms {names : List String} {words : List (List Char)}
    (closed : Token [']'] closes) (token : Token [','] comma)
    (each : List.Forall₂ (fun word name => Named name word) words names) (rest : List Char) :
    separatedSome (call expr limit) limit (List.intercalate comma words ++ (closes ++ rest))
      = none := by
  refine bind_of_none ?_
  cases each with
  | nil => exact bind_of_none (ident_opens.other (closed rest) (by decide))
  | @cons word name words names first others =>
    -- Behind the first name comes a comma or the closing bracket.
    have ends : Clear ['('] (closes ++ rest) := Clear.token closed (by decide) (by decide)
    have clear := clear_behind_item token (by decide) ends words
    rw [intercalate_cons, List.append_assoc]
    refine bind_of_some (first.reads clear.apart) ?_
    exact bind_of_none (bind_of_none (punct_clear clear (by decide)))

namespace SpellsOperand

/-- Parentheses make an operand of an expression. -/
theorem paren {text : List Char} {expr : Expr} (opened : Token ['('] opens)
    (closed : Token [')'] closes) (spells : Spells text expr) :
    SpellsOperand (opens ++ (text ++ closes)) expr := by
  intro limit room rest _
  simp only [List.length_append] at room
  simp only [List.append_assoc]
  exact orElse_of_some (spells.enclosed opened closed (by decide) (by omega) rest)

variable {written : List Char}

/-- A text between quotes is an operand. -/
theorem text {value : String} (token : Token (Text.quoted value).toList written) :
    SpellsOperand written (.text value) := by
  intro limit _ rest _
  obtain ⟨more, start⟩ := skip_quoted token rest
  refine (enclosed_opens _ _ _).orElse_other start (by decide) ?_
  exact orElse_of_some (map_of_some (stringLiteral_quoted token rest))

/-- A key name between its brackets is an operand. -/
theorem keyName {key : KeyName} (visible : IsVisibleName key)
    (token : Token key.label.toList written) : SpellsOperand written (.keyName key) := by
  intro limit _ rest _
  have start := skip_label token rest
  refine (enclosed_opens _ _ _).orElse_other start (by decide) ?_
  refine (stringLiteral_opens.map _).orElse_other start (by decide) ?_
  exact orElse_of_some (map_of_some (keyName_label visible token rest))

/-- A number in decimal is an operand. -/
theorem decimal {number : Nat} (fits : number ≤ largestInteger)
    (token : Token (Nat.toDigits 10 number) written) :
    SpellsOperand written (.integer (Int64.ofNat number)) := by
  intro limit _ rest clear
  exact primary_integer (integer_decimal fits token clear.apart)

theorem number {number : Nat} (fits : number ≤ largestInteger) :
    SpellsOperand (toString number).toList (.integer (Int64.ofNat number)) := by
  have written : (toString number).toList = Nat.toDigits 10 number := Nat.toList_repr
  rw [written]
  exact decimal fits (Token.decimal number)

theorem hexadecimal {width number : Nat} (fits : number ≤ largestInteger)
    (token : Token (Text.hexText width number).toList written) :
    SpellsOperand written (.integer (Int64.ofNat number)) := by
  intro limit _ rest clear
  exact primary_integer (integer_hexText fits token clear.apart)

/-- A hexadecimal number as it is printed is an operand. -/
theorem hexNumber {width number : Nat} (fits : number ≤ largestInteger) :
    SpellsOperand (Text.hexText width number).toList (.integer (Int64.ofNat number)) := by
  have token : Token (Text.hexText width number).toList (Text.hexText width number).toList := by
    rw [Text.hexText, String.toList_ofList]
    exact Token.plain (by decide) _
  exact hexadecimal fits token

variable {texts : List (List Char)} {exprs : List Expr} {index : Expr}

/-- A name with arguments is an operand. -/
theorem call (named : Named name word) (opened : Token ['('] opens) (closed : Token [')'] closes)
    (token : Token [','] comma) (each : List.Forall₂ Spells texts exprs) :
    SpellsOperand (word ++ (opens ++ (List.intercalate comma texts ++ closes)))
      (.call name exprs) := by
  intro limit room rest _
  simp only [List.length_append] at room
  have clear : Clear ['.'] (opens ++ (List.intercalate comma texts ++ (closes ++ rest))) :=
    Clear.token opened (by decide) (by decide)
  have args := arguments_reads opened closed token each
    (by rw [List.length_append]; omega : _ ≤ limit) rest
  simp only [List.append_assoc]
  rw [primary_name named (clear.mono (by simp))]
  refine bind_of_some (named.reads clear.apart) ?_
  exact bind_of_some (optional_of_some args) rfl

/-- An identifier is an operand. -/
theorem ident (named : Named name word) : SpellsOperand word (.ident name) := by
  intro limit _ rest clear
  rw [primary_name named (clear.mono (by simp)),
    reference_tail named (clear.mono (by simp [operandMarks]))]
  exact targetTail_ident (clear.mono (by simp [operandMarks]))

variable {dot behind : List Char} {field : String}

/-- A field of an element is an operand. -/
theorem fieldRef (named : Named name word) (token : Token ['.'] dot)
    (fieldNamed : Named field behind) :
    SpellsOperand (word ++ (dot ++ behind)) (.fieldRef name field) := by
  intro limit _ rest clear
  simp only [List.append_assoc]
  rw [primary_name named (Clear.token token (by decide) (by simp)),
    reference_tail named (Clear.token token (by decide) (by decide))]
  exact targetTail_field token fieldNamed (clear.mono (by simp [operandMarks]))

/-- A field with a subscript is an operand. -/
theorem arrayRef {text : List Char} (named : Named name word) (opened : Token ['['] opens)
    (closed : Token [']'] closes) (spells : Spells text index) :
    SpellsOperand (word ++ (opens ++ (text ++ closes))) (.arrayRef none name index) := by
  intro limit room rest _
  simp only [List.length_append] at room
  simp only [List.append_assoc]
  rw [primary_name named (Clear.token opened (by decide) (by simp)),
    reference_tail named (Clear.token opened (by decide) (by decide))]
  exact targetTail_index (Clear.token opened (by decide) (by decide))
    (spells.enclosed opened closed (by decide) (by omega) rest)

/-- A field of an element with a subscript is an operand. -/
theorem fieldArrayRef {text : List Char} (named : Named name word) (token : Token ['.'] dot)
    (fieldNamed : Named field behind) (opened : Token ['['] opens) (closed : Token [']'] closes)
    (spells : Spells text index) :
    SpellsOperand (word ++ (dot ++ (behind ++ (opens ++ (text ++ closes)))))
      (.arrayRef (some name) field index) := by
  intro limit room rest _
  simp only [List.length_append] at room
  simp only [List.append_assoc]
  rw [primary_name named (Clear.token token (by decide) (by simp)),
    reference_tail named (Clear.token token (by decide) (by decide))]
  exact targetTail_field_index token fieldNamed (Clear.token opened (by decide) (by simp))
    (spells.enclosed opened closed (by decide) (by omega) rest)

/-- A list of keysym names is an operand. -/
theorem keysyms {names : List String} {words : List (List Char)} (opened : Token ['['] opens)
    (closed : Token [']'] closes) (token : Token [','] comma)
    (each : List.Forall₂ (fun word name => Named name word) words names) :
    SpellsOperand (opens ++ (List.intercalate comma words ++ closes)) (.keysyms names) := by
  intro limit room rest _
  simp only [List.append_assoc]
  refine primary_bracket (opened _) (enclosed_reads opened closed ?_)
  refine orElse_of_none (map_of_none (calls_of_keysyms closed token each rest)) ?_
  refine map_of_some ?_
  have reads : List.Forall₂ (Reads [] keysym) words names := each.imp fun word name known rest
    clear => orElse_of_some (known.reads clear.apart)
  simp only [List.length_append] at room
  cases each with
  | nil =>
    -- The closing bracket is the name of no keysym.
    have none : keysym (closes ++ rest) = none :=
      (ident_opens.orElse (integer_opens.map _)).other (closed rest) (by decide)
    exact orElse_of_none (bind_of_none none) rfl
  | cons first others =>
    exact orElse_of_some
      (separatedSome_closed closed token (by decide) reads (by simp) (by omega) rest)

/-- A list of calls is an operand. -/
theorem calls (opened : Token ['['] opens) (closed : Token [']'] closes) (token : Token [','] comma)
    (some : texts ≠ [])
    (each : List.Forall₂ (fun text expr => ∀ limit, text.length ≤ limit →
      Reads [] (Source.call (expression limit) limit) text expr) texts exprs) :
    SpellsOperand (opens ++ (List.intercalate comma texts ++ closes)) (.calls exprs) := by
  intro limit room rest _
  simp only [List.append_assoc]
  simp only [List.length_append] at room
  refine primary_bracket (opened _) (enclosed_reads opened closed ?_)
  have short : ∀ part ∈ texts, part.length ≤ limit := by
    intro part inside
    have : part.length ≤ (List.intercalate comma texts).length := length_le_intercalate inside
    omega
  have reads := ((List.forall₂_and_left _ _).mpr ⟨short, each⟩).imp fun text expr spelled =>
    spelled.2 limit spelled.1
  exact orElse_of_some
    (map_of_some (separatedSome_closed closed token (by decide) reads some (by omega) rest))

end SpellsOperand

end Operands

section Operators

variable {sign text left right : List Char} {expr first second : Expr}

/-- Reads an operand behind up to so many operators. -/
def prefixed (count : Nat) (expr : Scan Expr) (limit : Nat) : Scan Expr := do
  let operators ← many unaryOperator count
  let operand ← primary expr limit
  return operators.foldr .unary operand

/-- The character of an operator in front of an operand. -/
def unarySign : UnaryOp → Char
  | .negate => '-'
  | .plus => '+'
  | .not => '!'
  | .invert => '~'

/-- The character of an operator between two expressions. -/
def binarySign : BinaryOp → Char
  | .add => '+'
  | .subtract => '-'
  | .multiply => '*'
  | .divide => '/'
  | .assign => '='

variable {op : BinaryOp} {cs rest : List Char}

theorem unaryOperator_sign {op : UnaryOp} (start : skip cs = unarySign op :: rest) :
    unaryOperator cs = some (op, rest) := by
  have found : punct (unarySign op) cs = some ((), rest) := by simp [punct, start]
  have other : ∀ sign, unarySign op ≠ sign → punct sign cs = none := fun sign differs =>
    punct_other start differs
  cases op with
  | negate => exact orElse_of_some (seqRight_of_some found rfl)
  | plus =>
    refine orElse_of_none (seqRight_of_none (other '-' (by decide))) ?_
    exact orElse_of_some (seqRight_of_some found rfl)
  | not =>
    refine orElse_of_none (seqRight_of_none (other '-' (by decide))) ?_
    refine orElse_of_none (seqRight_of_none (other '+' (by decide))) ?_
    exact orElse_of_some (seqRight_of_some found rfl)
  | invert =>
    refine orElse_of_none (seqRight_of_none (other '-' (by decide))) ?_
    refine orElse_of_none (seqRight_of_none (other '+' (by decide))) ?_
    refine orElse_of_none (seqRight_of_none (other '!' (by decide))) ?_
    exact seqRight_of_some found rfl

/-- A text is read as an operand behind any number of operators. -/
def SpellsUnary (text : List Char) (expr : Expr) : Prop :=
  ∀ limit count, text.length ≤ limit → text.length ≤ count →
    Reads operandMarks (prefixed count (expression limit) limit) text expr

/-- An operand may stand without operators. -/
theorem SpellsUnary.operand (spells : SpellsOperand text expr) : SpellsUnary text expr := by
  intro limit count room _ rest clear
  have operand := spells limit room rest clear
  have none := unaryOperator_of_primary operand
  have operators : many unaryOperator count (text ++ rest) = some ([], text ++ rest) := by
    cases count with
    | zero => rfl
    | succ count => exact bind_of_some (optional_of_none none) rfl
  exact bind_of_some operators (bind_of_some operand rfl)

/-- A further operator may stand in front. -/
theorem SpellsUnary.operator {op : UnaryOp} (token : Token [unarySign op] sign)
    (spells : SpellsUnary text expr) : SpellsUnary (sign ++ text) (.unary op expr) := by
  intro limit count room enough rest clear
  have positive := token.length_pos
  rw [List.length_append] at room enough
  cases count with
  | zero => omega
  | succ count =>
    have operator := unaryOperator_sign (token (text ++ rest))
    have inner := spells limit count (by omega) (by omega) rest clear
    -- The operators that are left are read in one go with those of the inner expression.
    obtain ⟨operators, middle, read, finish⟩ := bind_eq_some_iff.mp inner
    obtain ⟨operand, final, primary, result⟩ := bind_eq_some_iff.mp finish
    have many : many unaryOperator (count + 1) (sign ++ (text ++ rest))
        = some (op :: operators, middle) :=
      bind_of_some (optional_of_some operator) (bind_of_some read rfl)
    cases result
    rw [List.append_assoc]
    exact bind_of_some many (bind_of_some primary rfl)

/-- Reads one of two operators. -/
def eitherSign (first second : BinaryOp) : Scan BinaryOp :=
  (punct (binarySign first) *> pure first) <|> (punct (binarySign second) *> pure second)

theorem eitherSign_sign {other another : BinaryOp} (either : op = other ∨ op = another)
    (apart : binarySign another ≠ binarySign other) (start : skip cs = binarySign op :: rest) :
    eitherSign other another cs = some (op, rest) := by
  have found : punct (binarySign op) cs = some ((), rest) := by simp [punct, start]
  rcases either with rfl | rfl
  · exact orElse_of_some (seqRight_of_some found rfl)
  · refine orElse_of_none (seqRight_of_none (punct_other start apart)) ?_
    exact seqRight_of_some found rfl

theorem eitherSign_clear {marks : List Char} (clear : Clear marks rest) {other another : BinaryOp}
    (marked : binarySign other ∈ marks ∧ binarySign another ∈ marks) :
    eitherSign other another rest = none :=
  orElse_of_none (seqRight_of_none (punct_clear clear marked.1))
    (seqRight_of_none (punct_clear clear marked.2))

/-- A text is read as the start of a product. -/
def SpellsProduct (text : List Char) (expr : Expr) : Prop :=
  ∀ limit, text.length ≤ limit →
    StartsChain operandMarks (eitherSign .multiply .divide) (unary (expression limit) limit) limit
      text expr

/-- A text is read as the start of a sum. -/
def SpellsSum (text : List Char) (expr : Expr) : Prop :=
  ∀ limit, text.length ≤ limit →
    StartsChain productMarks (eitherSign .add .subtract) (product (expression limit) limit) limit
      text expr

/-- A text is a character behind blanks, if another text comes after it. -/
def SignBefore (c : Char) (sign behind : List Char) : Prop :=
  ∀ rest, skip (sign ++ (behind ++ rest)) = c :: (behind ++ rest)

theorem SignBefore.token {c : Char} (token : Token [c] sign) (behind : List Char) :
    SignBefore c sign behind :=
  fun rest => token (behind ++ rest)

theorem SignBefore.length_pos {c : Char} {behind : List Char} (before : SignBefore c sign behind) :
    0 < sign.length := by
  have shorter := (skip_suffix (sign ++ (behind ++ []))).length_le
  rw [before []] at shorter
  simp only [List.length_cons, List.length_append] at shorter
  omega

theorem SpellsProduct.unary (spells : SpellsUnary text expr) : SpellsProduct text expr :=
  fun limit room =>
    .single (spells limit limit room room) <| Together.takes fun size =>
      unary_together (inner_together (.refl size limit)) (.refl size limit)

/-- A product may be carried on by a factor. -/
theorem SpellsProduct.join (product : op = .multiply ∨ op = .divide)
    (start : SpellsProduct left first) (before : SignBefore (binarySign op) sign right)
    (factor : SpellsUnary right second) :
    SpellsProduct (left ++ sign ++ right) (.binary op first second) := by
  intro limit room
  have parts := room
  simp only [List.length_append] at parts
  refine .join (start limit (by omega)) (fun rest => ?_)
    (fun rest => eitherSign_sign product (by decide) (before rest))
    (factor limit limit (by omega) (by omega)) before.length_pos room
  rcases product with rfl | rfl <;> exact Clear.of_skip (before rest) (by decide) (by decide)

variable {limit : Nat}

theorem SpellsProduct.reads (spells : SpellsProduct text expr) (room : text.length ≤ limit) :
    Reads productMarks (product (expression limit) limit) text expr := by
  exact (spells limit room).reads room (by simp [productMarks]) fun rest clear =>
    eitherSign_clear clear (by decide)

theorem SpellsSum.product (spells : SpellsProduct text expr) : SpellsSum text expr :=
  fun limit room => .single (spells.reads room) <| Together.takes fun size =>
    product_together (inner_together (.refl size limit)) (.refl size limit)

/-- A sum may be carried on by a term. -/
theorem SpellsSum.join (sum : op = .add ∨ op = .subtract) (start : SpellsSum left first)
    (before : SignBefore (binarySign op) sign right) (term : SpellsProduct right second) :
    SpellsSum (left ++ sign ++ right) (.binary op first second) := by
  intro limit room
  have parts := room
  simp only [List.length_append] at parts
  refine .join (start limit (by omega)) (fun rest => ?_)
    (fun rest => eitherSign_sign sum (by decide) (before rest)) (term.reads (by omega))
    before.length_pos room
  rcases sum with rfl | rfl <;> exact Clear.of_skip (before rest) (by decide) (by decide)

theorem SpellsSum.reads (spells : SpellsSum text expr) (room : text.length ≤ limit) :
    Reads sumMarks (sum (expression limit) limit) text expr := by
  exact (spells limit room).reads room (by simp [sumMarks]) fun rest clear =>
    eitherSign_clear clear (by decide)

/-- A sum is an expression. -/
theorem Spells.sum (spells : SpellsSum text expr) : Spells text expr := by
  intro limit room rest clear
  cases limit with
  | zero => omega
  | succ limit =>
    have read := spells.reads (by omega : _ ≤ limit) rest (clear.mono (by simp [exprMarks]))
    refine bind_of_some read ?_
    exact bind_of_some (optional_of_none (punct_clear clear (by decide))) rfl

/-- An assignment is an expression, whose value may be an assignment again. -/
theorem Spells.assign (target : SpellsSum left first) (token : Token ['='] sign)
    (value : Spells right second) :
    Spells (left ++ sign ++ right) (.binary .assign first second) := by
  intro limit room rest clear
  have positive := token.length_pos
  simp only [List.length_append] at room
  cases limit with
  | zero => omega
  | succ limit =>
    have follows : Clear sumMarks (sign ++ (right ++ rest)) :=
      Clear.token token (by decide) (by decide)
    rw [List.append_assoc, List.append_assoc]
    refine bind_of_some (target.reads (by omega) _ follows) ?_
    refine bind_of_some (optional_of_some (punct_token token _)) ?_
    exact bind_of_some (value limit (by omega) rest clear) rfl

theorem Spells.operand (spells : SpellsOperand text expr) : Spells text expr :=
  .sum (.product (.unary (.operand spells)))

end Operators

section LeadingBlanks

variable {expr : Scan Expr}

theorem primary_skipsBlanks (limit : Nat) : SkipsBlanks (primary expr limit) := by
  refine ((punct_skipsBlanks '(').bind _).orElse ?_
  refine (stringLiteral_skipsBlanks.map _).orElse ?_
  refine (keyName_skipsBlanks.map _).orElse ?_
  refine (integer_skipsBlanks.map _).orElse ?_
  exact ((punct_skipsBlanks '[').bind _).orElse (ident_skipsBlanks.bind _)

theorem unaryOperator_skipsBlanks : SkipsBlanks unaryOperator := by
  refine ((punct_skipsBlanks '-').seqRight _).orElse ?_
  refine ((punct_skipsBlanks '+').seqRight _).orElse ?_
  exact ((punct_skipsBlanks '!').seqRight _).orElse ((punct_skipsBlanks '~').seqRight _)

theorem unary_skipsBlanks (limit : Nat) : SkipsBlanks (unary expr limit) := by
  intro cs
  -- Without an operator the blanks are still there when the operand is read.
  have bare : ∀ cs, many unaryOperator limit cs = some ([], cs) →
      unary expr limit cs = primary expr limit cs := by
    intro cs none
    refine bind_of_some none ?_
    cases read : primary expr limit cs with
    | none => exact bind_of_none read
    | some pair => exact bind_of_some read rfl
  cases limit with
  | zero => rw [bare _ rfl, bare _ rfl, primary_skipsBlanks 0 cs]
  | succ limit =>
    have same := unaryOperator_skipsBlanks cs
    cases operator : unaryOperator cs with
    | none =>
      have leaves : ∀ cs, unaryOperator cs = none →
          many unaryOperator (limit + 1) cs = some ([], cs) := fun cs none =>
        bind_of_some (optional_of_none none) rfl
      rw [bare _ (leaves _ operator), bare _ (leaves _ (same.trans operator)),
        primary_skipsBlanks (limit + 1) cs]
    | some pair =>
      obtain ⟨op, rest⟩ := pair
      have takes : ∀ cs, unaryOperator cs = some (op, rest) →
          many unaryOperator (limit + 1) cs
            = (do return op :: (← many unaryOperator limit) : Scan (List UnaryOp)) rest :=
        fun cs found => bind_of_some (optional_of_some found) rfl
      have equal : many unaryOperator (limit + 1) (skip cs) = many unaryOperator (limit + 1) cs := by
        rw [takes _ operator, takes _ (same.trans operator)]
      simp only [unary, bind, StateT.bind, equal]

theorem expression_skipsBlanks (limit : Nat) : SkipsBlanks (expression limit) := by
  cases limit with
  | zero => exact fun _ => rfl
  | succ limit => exact (((unary_skipsBlanks limit).bind _).bind _).bind _

end LeadingBlanks

end Xkb.Source
