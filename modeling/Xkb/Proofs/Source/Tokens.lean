import Xkb.Keymap.Printer
import Xkb.Proofs.Source.Scan
import Xkb.Proofs.Text.Numbers

/-! Tokens that are written out read back: behind blanks each reader finds the token it is for and
leaves the text that follows. -/

namespace Xkb.Source

section Blanks

theorem skip_skipFrom (pending : Nat) (cs : List Char) :
    skip (skipFrom pending cs) = skipFrom pending cs := by
  -- The last case is the one that stops; skipping its result takes the same branch again.
  fun_induction skipFrom pending cs with
  | case1 => rfl
  | case2 pending c rest ih => exact ih
  | case3 c rest space ih => exact ih
  | case4 c rest space length comment ih => exact ih
  | case5 c rest space comment => simp [skip, skipFrom, space, comment]

theorem skip_skip (cs : List Char) : skip (skip cs) = skip cs :=
  skip_skipFrom 0 cs

variable {c : Char}

theorem skip_of_space (space : isSpace c = true) (rest : List Char) :
    skip (c :: rest) = skip rest := by
  simp [skip, skipFrom, space]

/-- Whether a character is neither a blank nor able to start a comment. -/
def isSolid (c : Char) : Bool :=
  !isSpace c && c != '#' && c != '/'

theorem isSolid_of_identRest (named : isIdentRest c = true) : isSolid c = true := by
  cases other : isSolid c with
  | true => rfl
  | false =>
    -- The few characters that are not solid belong to no name.
    simp only [isSolid, isSpace, Bool.and_eq_false_iff, Bool.not_eq_false', Bool.or_eq_true,
      beq_iff_eq, bne_eq_false_iff_eq] at other
    rcases other with ((((rfl | rfl) | rfl) | rfl) | rfl) | rfl <;> exact absurd named (by decide)

/-- Nothing is passed over in front of a solid character. -/
theorem skip_of_solid (solid : isSolid c = true) (rest : List Char) :
    skip (c :: rest) = c :: rest := by
  simp only [isSolid, Bool.and_eq_true, Bool.not_eq_true'] at solid
  obtain ⟨⟨space, hash⟩, slash⟩ := solid
  have comment : commentTail (c :: rest) = none := by
    unfold commentTail
    split <;> simp_all
  simp [skip, skipFrom, space, comment]

/-- A slash in front of a blank starts no comment. -/
theorem skip_slash (space : isSpace c = true) (rest : List Char) :
    skip ('/' :: c :: rest) = '/' :: c :: rest := by
  have comment : commentTail ('/' :: c :: rest) = none := by
    unfold commentTail
    split
    · simp_all
    · simp_all [isSpace]
    · simp_all [isSpace]
    · rfl
  have plain : isSpace '/' = false := by decide
  simp [skip, skipFrom, plain, comment]

variable {α β : Type}

/-- A reader finds the same whether or not the blanks in front have been passed over. -/
def SkipsBlanks (reader : Scan α) : Prop :=
  ∀ cs, reader (skip cs) = reader cs

namespace SkipsBlanks

variable {reader other : Scan α}

theorem bind (first : SkipsBlanks reader) (next : α → Scan β) : SkipsBlanks (reader >>= next) := by
  intro cs
  simp [Bind.bind, StateT.bind, first cs]

theorem orElse (first : SkipsBlanks reader) (second : SkipsBlanks other) :
    SkipsBlanks (reader <|> other) := by
  intro cs
  simp [HOrElse.hOrElse, OrElse.orElse, Alternative.orElse, StateT.orElse, first cs, second cs]

theorem map (change : α → β) (first : SkipsBlanks reader) : SkipsBlanks (change <$> reader) := by
  rw [map_eq_pure_bind]
  exact first.bind _

theorem seqRight (first : SkipsBlanks reader) (later : Scan β) : SkipsBlanks (reader *> later) := by
  rw [seqRight_eq_bind]
  exact first.bind _

end SkipsBlanks

/-- A reader finds something only where, behind blanks, a character of a certain kind stands. -/
def Opens (kind : Char → Bool) (reader : Scan α) : Prop :=
  ∀ cs, (∀ c ∈ (skip cs).head?, kind c = false) → reader cs = none

namespace Opens

variable {kind others : Char → Bool} {reader second : Scan α} {c : Char} {cs rest : List Char}

theorem other (opens : Opens kind reader) (start : skip cs = c :: rest)
    (another : kind c = false) : reader cs = none :=
  opens cs (by simpa [start] using another)

theorem starts {pair : α × List Char} (opens : Opens kind reader)
    (found : reader cs = some pair) : ∃ c rest, skip cs = c :: rest ∧ kind c = true := by
  have some : ¬∀ c ∈ (skip cs).head?, kind c = false := by
    intro absent
    rw [opens cs absent] at found
    cases found
  cases start : skip cs with
  | nil => simp [start] at some
  | cons c rest => exact ⟨c, rest, rfl, by simpa [start] using some⟩

theorem bind (first : Opens kind reader) (next : α → Scan β) : Opens kind (reader >>= next) :=
  fun cs absent => bind_of_none (first cs absent)

theorem map (change : α → β) (first : Opens kind reader) : Opens kind (change <$> reader) :=
  fun cs absent => map_of_none (first cs absent)

theorem seqRight (first : Opens kind reader) (later : Scan β) : Opens kind (reader *> later) :=
  fun cs absent => seqRight_of_none (first cs absent)

theorem apart (absent : ∀ c ∈ (skip cs).head?, (kind c || others c) = false) :
    (∀ c ∈ (skip cs).head?, kind c = false) ∧ ∀ c ∈ (skip cs).head?, others c = false :=
  ⟨fun c head => (Bool.or_eq_false_iff.mp (absent c head)).1,
    fun c head => (Bool.or_eq_false_iff.mp (absent c head)).2⟩

/-- A choice of readers opens as either of them does. -/
theorem orElse (first : Opens kind reader) (other : Opens others second) :
    Opens (fun c => kind c || others c) (reader <|> second) :=
  fun cs absent => orElse_of_none (first cs (apart absent).1) (other cs (apart absent).2)

theorem orElse_other {outcome : Option (α × List Char)} (first : Opens kind reader)
    (start : skip cs = c :: rest) (another : kind c = false) (ends : second cs = outcome) :
    (reader <|> second) cs = outcome :=
  orElse_of_none (first.other start another) ends

theorem many_bind {next : List α → Scan β} (first : Opens kind reader) (limit : Nat)
    (rest : Opens others (next [])) :
    Opens (fun c => kind c || others c) (many reader limit >>= next) :=
  fun cs absent => bind_of_some (many_of_none (first cs (apart absent).1) limit)
    (rest cs (apart absent).2)

end Opens

theorem punct_skipsBlanks (c : Char) : SkipsBlanks (punct c) := by
  intro cs
  simp only [punct, skip_skip]

theorem ident_skipsBlanks : SkipsBlanks ident := by
  intro cs
  simp only [ident, skip_skip]

theorem integer_skipsBlanks : SkipsBlanks integer := by
  intro cs
  simp only [integer, skip_skip]

theorem stringLiteral_skipsBlanks : SkipsBlanks stringLiteral := by
  intro cs
  simp only [stringLiteral, skip_skip]

theorem keyName_skipsBlanks : SkipsBlanks keyName := by
  intro cs
  simp only [keyName, skip_skip]

end Blanks

section Surroundings

/-- A text is given characters behind blanks, whatever comes after it. -/
def Token (chars text : List Char) : Prop :=
  ∀ rest, skip (text ++ rest) = chars ++ rest

namespace Token

variable {chars text : List Char}

theorem plain {c : Char} (solid : isSolid c = true) (chars : List Char) :
    Token (c :: chars) (c :: chars) := by
  intro rest
  exact skip_of_solid solid (chars ++ rest)

theorem space (token : Token chars text) : Token chars (' ' :: text) := by
  intro rest
  rw [List.cons_append, skip_of_space (by decide), token rest]

/-- Any blanks may stand in front of a token. -/
theorem blanks (token : Token chars text) {front : List Char} (blank : front.all isSpace = true) :
    Token chars (front ++ text) := by
  intro rest
  induction front with
  | nil => exact token rest
  | cons c front ih =>
    rw [List.all_cons, Bool.and_eq_true] at blank
    rw [List.cons_append, List.cons_append, skip_of_space blank.1]
    exact ih blank.2

end Token

/-- A text goes on neither with a name or number nor, behind blanks, with one of the marks. -/
structure Clear (marks rest : List Char) : Prop where
  apart : ∀ c ∈ rest.head?, isIdentRest c = false
  unmarked : ∀ c ∈ (skip rest).head?, c ∉ marks

namespace Clear

variable {marks rest : List Char}

theorem mono {fewer : List Char} (clear : Clear marks rest) (subset : fewer ⊆ marks) :
    Clear fewer rest :=
  ⟨clear.apart, fun c head member => clear.unmarked c head (subset member)⟩

theorem nil : Clear marks [] :=
  ⟨by simp, by simp [skip, skipFrom]⟩

/-- A text is clear of marks where, behind blanks, another character stands that belongs to no
name or number. -/
theorem of_skip {c : Char} {more : List Char} (start : skip rest = c :: more)
    (apart : isIdentRest c = false) (unmarked : c ∉ marks) : Clear marks rest := by
  refine ⟨fun d head => ?_, fun d head => ?_⟩
  · -- A character of a name or number would not be passed over.
    cases rest with
    | nil => simp at head
    | cons first behind =>
      obtain rfl : first = d := by simpa using head
      cases named : isIdentRest first with
      | false => rfl
      | true =>
        rw [skip_of_solid (isSolid_of_identRest named)] at start
        rw [← apart, ← (List.cons.inj start).1, named]
  · rw [start] at head
    obtain rfl : c = d := by simpa using head
    exact unmarked

theorem token {c : Char} {text : List Char} (token : Token [c] text)
    (apart : isIdentRest c = false) (unmarked : c ∉ marks) : Clear marks (text ++ rest) :=
  of_skip (token rest) apart unmarked

end Clear

variable {c : Char}

theorem punct_token {text : List Char} (token : Token [c] text) (rest : List Char) :
    punct c (text ++ rest) = some ((), rest) := by
  simp [punct, token rest]

theorem punct_opens (c : Char) : Opens (· == c) (punct c) := by
  intro cs absent
  cases start : skip cs with
  | nil => simp [punct, start]
  | cons d rest =>
    have other : d ≠ c := by simpa [start] using absent
    simp [punct, start, other]

theorem punct_other {d : Char} {cs rest : List Char} (start : skip cs = d :: rest) (other : d ≠ c) :
    punct c cs = none :=
  (punct_opens c).other start (beq_eq_false_iff_ne.mpr other)

/-- A mark is not found where the text is clear of it. -/
theorem punct_clear {marks rest : List Char} (clear : Clear marks rest) (mark : c ∈ marks) :
    punct c rest = none :=
  punct_opens c rest fun d head => beq_eq_false_iff_ne.mpr fun same =>
    clear.unmarked d head (same ▸ mark)

theorem run_append {α : Type} {kind : α → Bool} {run rest : List α} (all : ∀ c ∈ run, kind c = true)
    (stops : ∀ c ∈ rest.head?, kind c = false) :
    (run ++ rest).takeWhile kind = run ∧ (run ++ rest).dropWhile kind = rest := by
  rw [List.takeWhile_append_of_pos all, List.dropWhile_append_of_pos all]
  cases rest with
  | nil => simp
  | cons c more => simp [stops c (by simp)]

end Surroundings

section Names

/-- Whether a text is an identifier. -/
def isIdent (name : String) : Bool :=
  match name.toList with
  | [] => false
  | c :: rest => isIdentStart c && rest.all isIdentRest

theorem isIdent_iff {name : String} : isIdent name = true ↔
    ∃ c rest, name.toList = c :: rest ∧ isIdentStart c = true ∧
      ∀ d ∈ rest, isIdentRest d = true := by
  unfold isIdent
  cases name.toList with
  | nil => simp
  | cons c rest => simp

theorem identRest_of_identStart {c : Char} (starts : isIdentStart c = true) :
    isIdentRest c = true := by
  simp only [isIdentStart, Bool.or_eq_true] at starts
  simp only [isIdentRest, Char.isAlphanum, Bool.or_eq_true]
  exact starts.imp_left Or.inl

/-- A text is an identifier behind blanks. -/
structure Named (name : String) (text : List Char) : Prop where
  identifier : isIdent name = true
  token : Token name.toList text

namespace Named

variable {name : String} {text : List Char}

theorem plain (identifier : isIdent name = true) : Named name name.toList := by
  refine ⟨identifier, ?_⟩
  obtain ⟨c, more, spelled, starts, -⟩ := isIdent_iff.mp identifier
  rw [spelled]
  exact Token.plain (isSolid_of_identRest (identRest_of_identStart starts)) more

theorem space (named : Named name text) : Named name (' ' :: text) :=
  ⟨named.identifier, named.token.space⟩

theorem blanks (named : Named name text) {front : List Char} (blank : front.all isSpace = true) :
    Named name (front ++ text) :=
  ⟨named.identifier, named.token.blanks blank⟩

/-- An identifier is found where it stands, if the text does not go on with it. -/
theorem reads (named : Named name text) {rest : List Char}
    (apart : ∀ c ∈ rest.head?, isIdentRest c = false) :
    ident (text ++ rest) = some (name, rest) := by
  obtain ⟨c, more, spelled, starts, goes⟩ := isIdent_iff.mp named.identifier
  obtain ⟨taken, left⟩ := run_append goes apart
  have same : String.ofList (c :: more) = name := by rw [← spelled, String.ofList_toList]
  simp [ident, named.token rest, spelled, starts, taken, left, same]

/-- An identifier ends at a blank. -/
theorem spaced (named : Named name text) (rest : List Char) :
    ident (text ++ ' ' :: rest) = some (name, ' ' :: rest) := by
  refine named.reads fun c head => ?_
  obtain rfl : ' ' = c := by simpa using head
  decide

end Named

theorem ident_opens : Opens isIdentStart ident := by
  intro cs absent
  cases start : skip cs with
  | nil => simp [ident, start]
  | cons c rest =>
    have other : isIdentStart c = false := by simpa [start] using absent
    simp [ident, start, other]

end Names

section Numbers

open Text

theorem isIdentRest_of_digit {base : Nat} {c : Char} (digit : isDigitOf base c = true) :
    isIdentRest c = true := by
  -- The ranges of digits lie in the ranges of digits and of letters of either case.
  have ranges := isDigitOf_ranges digit
  have ends : '0'.toNat = 48 ∧ '9'.toNat = 57 ∧ 'A'.toNat = 65 ∧ 'Z'.toNat = 90 ∧
      'a'.toNat = 97 ∧ 'z'.toNat = 122 := by decide
  delta isIdentRest Char.isAlphanum Char.isAlpha Char.isUpper Char.isLower Char.isDigit
  simp only [UInt32.le_iff_toNat_le, Bool.or_eq_true, Bool.and_eq_true, decide_eq_true_eq]
  unfold Char.toNat at ranges ends
  exact .inl (by omega)

/-- A decimal digit starts no identifier. -/
theorem isIdentStart_of_decimal {c : Char} (digit : isDigitOf 10 c = true) :
    isIdentStart c = false := by
  have range := (isDigitOf_ranges digit).resolve_right fun more => absurd more.1 (by decide)
  have under : c ≠ '_' := by
    rintro rfl
    exact absurd range (by decide)
  have letters : 'A'.toNat = 65 ∧ 'a'.toNat = 97 := by decide
  delta isIdentStart Char.isAlpha Char.isUpper Char.isLower
  simp only [UInt32.le_iff_toNat_le, Bool.or_eq_false_iff, Bool.and_eq_false_iff,
    decide_eq_false_iff_not, beq_eq_false_iff_ne]
  unfold Char.toNat at range letters
  exact ⟨⟨by omega, by omega⟩, under⟩

variable {base : Nat}

theorem digits_run {run rest : List Char} (some : run ≠ [])
    (all : ∀ c ∈ run, isDigitOf base c = true) (fits : digitsValue base run ≤ largestInteger)
    (apart : ∀ c ∈ rest.head?, isIdentRest c = false) :
    digits base (run ++ rest) = .some (Int64.ofNat (digitsValue base run), rest) := by
  have stops : ∀ c ∈ rest.head?, isDigitOf base c = false := by
    intro c head
    cases digit : isDigitOf base c with
    | false => rfl
    | true => rw [← apart c head, isIdentRest_of_digit digit]
  obtain ⟨taken, left⟩ := run_append all stops
  simp [digits, taken, left, readDigits_of_digits some all fits]

theorem hexInteger_run {run rest : List Char} (all : ∀ c ∈ run, isDigitOf 10 c = true)
    (apart : ∀ c ∈ rest.head?, isIdentRest c = false) (some : run ≠ []) :
    hexInteger (run ++ rest) = none := by
  -- The marker's letter is no decimal digit, and it does not stand behind the run either.
  have unmarked : ∀ {marker : Char} {more : List Char}, isDigitOf 10 marker = false →
      isIdentRest marker = true → run ++ rest ≠ '0' :: marker :: more := by
    intro marker more noDigit named starts
    match run, some with
    | [_], _ =>
      obtain ⟨-, rfl⟩ : _ ∧ rest = marker :: more := by simpa using starts
      rw [apart marker (by simp)] at named
      exact absurd named (by decide)
    | _ :: second :: _, _ =>
      obtain ⟨-, rfl, -⟩ : _ ∧ second = marker ∧ _ := by simpa using starts
      rw [all second (by simp)] at noDigit
      exact absurd noDigit (by decide)
  unfold hexInteger
  split
  · exact absurd ‹_› (unmarked (by decide) (by decide))
  · exact absurd ‹_› (unmarked (by decide) (by decide))
  · rfl

variable {number : Nat}

/-- A number in decimal is found where it stands. -/
theorem integer_decimal {text rest : List Char} (fits : number ≤ largestInteger)
    (token : Token (Nat.toDigits 10 number) text) (apart : ∀ c ∈ rest.head?, isIdentRest c = false) :
    integer (text ++ rest) = some (Int64.ofNat number, rest) := by
  have all := isDigitOf_toDigits (show 1 < 10 by decide) (by decide) number
  have value := digitsValue_toDigits (show 1 < 10 by decide) (by decide) number
  have read := digits_run Nat.toDigits_ne_nil all (by rwa [value]) apart
  simp only [integer, token rest, hexInteger_run all apart Nat.toDigits_ne_nil, read, value]
  rfl

/-- A number in hexadecimal is found where it stands. -/
theorem integer_hexText {width : Nat} {text rest : List Char} (fits : number ≤ largestInteger)
    (token : Token (hexText width number).toList text)
    (apart : ∀ c ∈ rest.head?, isIdentRest c = false) :
    integer (text ++ rest) = some (Int64.ofNat number, rest) := by
  have value := digitsValue_hexDigits width number
  have read := digits_run (padZeros_ne_nil width number) (isDigitOf_padZeros width number)
    (by rwa [value]) apart
  simp only [integer, token rest, hexText, String.toList_ofList, List.cons_append, hexInteger,
    read, value]
  rfl

theorem toDigits_eq_cons (number : Nat) :
    ∃ c more, Nat.toDigits 10 number = c :: more ∧ isDigitOf 10 c = true := by
  have all := isDigitOf_toDigits (show 1 < 10 by decide) (by decide) number
  cases spelled : Nat.toDigits 10 number with
  | nil => exact absurd spelled Nat.toDigits_ne_nil
  | cons c more => exact ⟨c, more, rfl, all c (by simp [spelled])⟩

theorem Token.decimal (number : Nat) :
    Token (Nat.toDigits 10 number) (Nat.toDigits 10 number) := by
  obtain ⟨c, more, spelled, digit⟩ := toDigits_eq_cons number
  rw [spelled]
  exact Token.plain (isSolid_of_identRest (isIdentRest_of_digit digit)) more

/-- Behind blanks a number starts with a digit. -/
theorem skip_decimal {text : List Char} (token : Token (Nat.toDigits 10 number) text)
    (rest : List Char) :
    ∃ c more, skip (text ++ rest) = c :: more ∧ isDigitOf 10 c = true := by
  obtain ⟨c, more, spelled, digit⟩ := toDigits_eq_cons number
  exact ⟨c, more ++ rest, by rw [token rest, spelled]; rfl, digit⟩

/-- No number is found where another kind of character stands. -/
theorem integer_opens : Opens (isDigitOf 10) integer := by
  intro cs absent
  cases start : skip cs with
  | nil => simp [integer, start, hexInteger, digits, readDigits]
  | cons c rest =>
    have other : isDigitOf 10 c = false := by simpa [start] using absent
    have decimal : digits 10 (c :: rest) = none := by simp [digits, other, readDigits]
    have hex : hexInteger (c :: rest) = none := by
      unfold hexInteger
      split
      · rename_i same
        exact absurd ((List.cons.inj same).1 ▸ other) (by decide)
      · rename_i same
        exact absurd ((List.cons.inj same).1 ▸ other) (by decide)
      · rfl
    simp [integer, start, decimal, hex]

end Numbers

section Strings

open Text

theorem stringFrom_escaped {c : Char} {value : Char} (cs : List Char)
    (escaped : escape (c :: cs) = some (value, 1)) :
    stringFrom 0 ('\\' :: c :: cs) =
      (stringFrom 0 cs).map fun (found, left) => (value :: found, left) := by
  simp [stringFrom, escaped]

theorem stringFrom_escapeChar (c : Char) (cs : List Char) :
    stringFrom 0 (escapeChar c ++ cs) =
      (stringFrom 0 cs).map fun (found, left) => (c :: found, left) := by
  unfold escapeChar
  split
  · -- Neither a quote nor a backslash is the letter of an escape or an octal digit.
    rename_i special
    simp only [Bool.or_eq_true, beq_iff_eq] at special
    refine stringFrom_escaped cs ?_
    rcases special with rfl | rfl <;> simp [escape, octalRun, isDigitOf, digitValue, readDigits]
  · split
    · rename_i feed
      obtain rfl : c = '\n' := by simpa using feed
      exact stringFrom_escaped cs rfl
    · split
      · rename_i tab
        obtain rfl : c = '\t' := by simpa using tab
        exact stringFrom_escaped cs rfl
      · -- Any other character stands for itself.
        rename_i special _ _
        simp only [Bool.or_eq_true, beq_iff_eq, not_or] at special
        rw [List.singleton_append, stringFrom]
        · exact special.1
        · exact special.2

theorem stringFrom_escaped_run (cs rest : List Char) :
    stringFrom 0 (cs.flatMap escapeChar ++ '"' :: rest) = some (cs, rest) := by
  induction cs with
  | nil => simp [stringFrom]
  | cons c more ih => simp [stringFrom_escapeChar, ih]

theorem quoted_toList (value : String) :
    (quoted value).toList = '"' :: (value.toList.flatMap escapeChar ++ ['"']) := by
  simp [quoted]

/-- Every text between its quotes reads back, and no escape takes anything of what follows. -/
theorem stringBody_quoted (value : String) (rest : List Char) :
    stringBody ((quoted value).toList ++ rest) = some (value, rest) := by
  rw [quoted_toList, List.cons_append, List.append_assoc, List.singleton_append, stringBody,
    stringFrom_escaped_run]
  simp

variable {value : String} {text : List Char}

theorem stringLiteral_quoted (token : Token (quoted value).toList text) (rest : List Char) :
    stringLiteral (text ++ rest) = some (value, rest) := by
  simp [stringLiteral, token rest, quoted_toList, stringBody, stringFrom_escaped_run]

theorem Token.quoted (value : String) : Token (quoted value).toList (quoted value).toList := by
  rw [quoted_toList]
  exact Token.plain (by decide) _

theorem skip_quoted (token : Token (quoted value).toList text) (rest : List Char) :
    ∃ more, skip (text ++ rest) = '"' :: more :=
  ⟨_, by rw [token rest, quoted_toList, List.cons_append]⟩

theorem stringLiteral_opens : Opens (· == '"') stringLiteral := by
  intro cs absent
  rw [stringLiteral]
  unfold stringBody
  split
  · rename_i start
    simp [start] at absent
  · rfl

end Strings

section KeyNames

/-- Whether a character is visible and can stand in a key name. -/
def isVisible (c : Char) : Bool :=
  0x21 ≤ c.toNat && c.toNat ≤ 0x7e && c != '>'

/-- A key name of one to four visible characters. -/
def IsVisibleName (name : KeyName) : Prop :=
  ∃ chars : List Char, name = KeyName.ofString (String.ofList chars) ∧ chars ≠ [] ∧
    chars.length ≤ 4 ∧ ∀ c ∈ chars, isVisible c = true

theorem utf8EncodeChar_visible {c : Char} (visible : isVisible c = true) :
    String.utf8EncodeChar c = [c.toNat.toUInt8] := by
  simp only [isVisible, Bool.and_eq_true, decide_eq_true_eq] at visible
  have small : c.val.toNat ≤ 0x7f := Nat.le_trans visible.1.2 (by decide)
  rw [String.utf8EncodeChar, if_pos small]
  rfl

theorem toUInt8_visible {c : Char} (visible : isVisible c = true) :
    c.toNat.toUInt8.toNat = c.toNat ∧ c.toNat.toUInt8 ≠ 0 := by
  simp only [isVisible, Bool.and_eq_true, decide_eq_true_eq] at visible
  have byte : c.toNat.toUInt8.toNat = c.toNat :=
    UInt8.toNat_ofNat_of_lt' (Nat.lt_of_le_of_lt visible.1.2 (by decide))
  refine ⟨byte, fun zero => ?_⟩
  rw [zero] at byte
  simp at byte
  omega

theorem bytes_pack_four (a b c d : UInt8) : (KeyName.pack [a, b, c, d]).bytes = [a, b, c, d] := by
  simp only [KeyName.bytes, KeyName.pack, List.getD_cons_zero, List.getD_cons_succ,
    List.cons.injEq, and_true]
  -- Each byte is compared bit by bit with the bits that the shifts put in its place.
  refine ⟨?_, ?_, ?_, ?_⟩
  all_goals
    apply UInt8.toBitVec_inj.mp
    apply BitVec.eq_of_getLsbD_eq
    intro position small
    simp <;> grind

theorem bytes_pack {bytes : List UInt8} (short : bytes.length ≤ 4) :
    (KeyName.pack bytes).bytes = bytes ++ List.replicate (4 - bytes.length) 0 := by
  match bytes, short with
  | [], _ => exact bytes_pack_four 0 0 0 0
  | [a], _ => exact bytes_pack_four a 0 0 0
  | [a, b], _ => exact bytes_pack_four a b 0 0
  | [a, b, c], _ => exact bytes_pack_four a b c 0
  | [a, b, c, d], _ => exact bytes_pack_four a b c d

theorem text_ofString {chars : List Char} (short : chars.length ≤ 4)
    (visible : ∀ c ∈ chars, isVisible c = true) :
    (KeyName.ofString (String.ofList chars)).text = String.ofList chars := by
  -- Each character is one byte, and none of them is the zero that ends a name.
  have encoded : chars.flatMap String.utf8EncodeChar = chars.map fun c => c.toNat.toUInt8 := by
    clear short
    induction chars with
    | nil => rfl
    | cons c more ih =>
      simp [utf8EncodeChar_visible (visible c (by simp)), ih fun d member => visible d (by simp [member])]
  have stops : ∀ byte ∈ (List.replicate (4 - (chars.map fun c => c.toNat.toUInt8).length)
      (0 : UInt8)).head?, (byte != 0) = false := by
    intro byte head
    rw [(List.mem_replicate.mp (List.mem_of_mem_head? head)).2]
    rfl
  have solid : ∀ byte ∈ chars.map (fun c => c.toNat.toUInt8), (byte != 0) = true := by
    intro byte member
    obtain ⟨c, inside, rfl⟩ := List.mem_map.mp member
    simpa using (toUInt8_visible (visible c inside)).2
  have back : (chars.map fun c => c.toNat.toUInt8).map (fun byte => Char.ofNat byte.toNat)
      = chars := by
    rw [List.map_map]
    refine (List.map_congr_left fun c member => ?_).trans (List.map_id chars)
    simp [(toUInt8_visible (visible c member)).1]
  rw [KeyName.text, KeyName.ofString, String.toList_ofList, encoded,
    bytes_pack (by simpa using short), (run_append solid stops).1, back]

variable {name : KeyName} {text : List Char}

/-- A key name of visible characters is found where it stands between its brackets. -/
theorem keyName_label (visible : IsVisibleName name) (token : Token name.label.toList text)
    (rest : List Char) :
    keyName (text ++ rest) = some (name, rest) := by
  obtain ⟨chars, rfl, -, short, visible⟩ := visible
  have inside : ∀ c ∈ chars, isKeyNameChar c = true := by
    intro c member
    have range := visible c member
    simp only [isVisible, Bool.and_eq_true, decide_eq_true_eq] at range
    simp only [isKeyNameChar, range.2, Text.isBlank, Text.blankRanges]
    simp
    omega
  have stops : ∀ c ∈ ('>' :: rest).head?, isKeyNameChar c = false := by simp [isKeyNameChar]
  obtain ⟨taken, left⟩ := run_append inside stops
  simp [keyName, token rest, KeyName.label, text_ofString short visible, taken, left]

theorem Token.label (name : KeyName) : Token name.label.toList name.label.toList := by
  have spelled : name.label.toList = '<' :: (name.text.toList ++ ['>']) := by simp [KeyName.label]
  rw [spelled]
  exact Token.plain (by decide) _

theorem skip_label (token : Token name.label.toList text) (rest : List Char) :
    skip (text ++ rest) = '<' :: (name.text.toList ++ '>' :: rest) := by
  rw [token rest]
  simp [KeyName.label]

theorem keyName_opens : Opens (· == '<') keyName := by
  intro cs absent
  unfold keyName
  split
  · rename_i start
    simp [start] at absent
  · rfl

end KeyNames

end Xkb.Source
