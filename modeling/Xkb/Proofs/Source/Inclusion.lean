import Mathlib.Data.List.Forall2
import Xkb.Proofs.Text.Numbers
import Xkb.Source.Inclusion

/-! Include texts as they are written: the terms of a text are read back with the modes that the
operators ask for, and each operator of a text that is read has a term behind it. -/

namespace Xkb

namespace Source

/-- A name without the marks that an include text is split at. -/
def PlainName (name : String) : Prop :=
  ∀ c ∈ name.toList, c ∉ ['+', '|', ':', '(', ')']

instance (name : String) : Decidable (PlainName name) :=
  List.decidableBAll (fun c => c ∉ ['+', '|', ':', '(', ')']) name.toList

theorem PlainName.not_mem {name : String} (plain : PlainName name) {mark : Char}
    (isMark : mark ∈ ['+', '|', ':', '(', ')']) : mark ∉ name.toList :=
  fun member => plain mark member isMark

/-- One term of an include text as it is written. -/
structure TermSpelling where
  file : Option String
  map : Option String
  group : Option UInt32
  /-- A group behind a map stands between parentheses, and not behind a colon. -/
  enclosed : Bool
  named : file ≠ some ""
  plainFile : ∀ name ∈ file, PlainName name
  plainMap : ∀ name ∈ map, PlainName name

/-- A text between parentheses. -/
def enclose (cs : List Char) : List Char :=
  '(' :: (cs ++ [')'])

section Splitting

variable {cs : List Char}

theorem splitAtFirst_of_absent {mark : Char} (absent : mark ∉ cs) :
    splitAtFirst mark cs = none := by
  have others : ∀ c ∈ cs, (c != mark) = true := by
    intro c member
    simpa using fun same : c = mark => absent (same ▸ member)
  have dropped : cs.dropWhile (· != mark) = [] := by
    rw [← List.append_nil cs, List.dropWhile_append_of_pos others]
    rfl
  rw [splitAtFirst, dropped]

theorem splitAtFirst_append {mark : Char} {before : List Char} (absent : mark ∉ before)
    (behind : List Char) : splitAtFirst mark (before ++ mark :: behind) = some (before, behind) := by
  have others : ∀ c ∈ before, (c != mark) = true := by
    intro c member
    simpa using fun same : c = mark => absent (same ▸ member)
  have dropped : (before ++ mark :: behind).dropWhile (· != mark) = mark :: behind := by
    rw [List.dropWhile_append_of_pos others]
    simp
  have taken : (before ++ mark :: behind).takeWhile (· != mark) = before := by
    rw [List.takeWhile_append_of_pos others]
    simp
  rw [splitAtFirst, dropped, taken]

theorem splitAtLast_append {mark : Char} (before : List Char) {behind : List Char}
    (absent : mark ∉ behind) :
    splitAtLast mark (before ++ mark :: behind) = some (before, behind) := by
  have turned : (before ++ mark :: behind).reverse = behind.reverse ++ mark :: before.reverse := by
    simp
  rw [splitAtLast, turned, splitAtFirst_append (by simpa using absent)]
  simp

theorem dropClosing_append (cs : List Char) : dropClosing (cs ++ [')']) = some cs := by
  simp [dropClosing]

/-- A text that ends in a part between parentheses is looked at for a group in this part, if there
is a closing parenthesis in front of it. -/
theorem groupBehindMap_enclose (before : List Char) (absent : '(' ∉ cs) :
    groupBehindMap (before ++ enclose cs) =
      if before.getLast? = some ')' then (groupNumber cs).map (before, ·) else none := by
  have whole : before ++ enclose cs = (before ++ '(' :: cs) ++ [')'] := by simp [enclose]
  rw [groupBehindMap, whole, dropClosing_append, Option.bind_eq_bind, Option.bind_some,
    splitAtLast_append before absent, Option.bind_eq_bind, Option.bind_some]
  dsimp only [guard]
  split
  · cases groupNumber cs <;> rfl
  · rfl

theorem groupNumber_toDigits (group : UInt32) :
    groupNumber (Nat.toDigits 10 group.toNat) = some group := by
  have solid : ∀ c ∈ Nat.toDigits 10 group.toNat, Text.isBlank c = false := fun c member =>
    Text.isBlank_of_digit (Text.isDigitOf_toDigits (by decide) (by decide) _ c member)
  have small : group.toNat ≤ 0xffffffff := Nat.le_of_lt_succ group.toNat_lt
  rw [groupNumber, Text.trim_of_solid solid, Text.readNumber_toDigits small, Option.map_some,
    Nat.toUInt32, UInt32.ofNat_toNat]

theorem not_mem_toDigits {mark : Char} (isMark : mark ∈ ['+', '|', ':', '(', ')']) (number : Nat) :
    mark ∉ Nat.toDigits 10 number := by
  have marks : ['+', '|', ':', '(', ')'].all (Text.isDigitOf 10 · == false) = true := by decide
  have other : Text.isDigitOf 10 mark = false := by
    simpa using List.all_eq_true.mp marks mark isMark
  intro member
  simp [Text.isDigitOf_toDigits (by decide) (by decide) number mark member] at other

end Splitting

section Terms

variable (term : TermSpelling)

namespace TermSpelling

/-- The names of a term as text. -/
def names : List Char :=
  (term.file.getD "").toList ++ (term.map.map fun map => enclose map.toList).getD []

/-- The group of a term as text. -/
def groupText : List Char :=
  match term.group with
  | none => []
  | some group =>
    let digits := Nat.toDigits 10 group.toNat
    if term.enclosed && term.map.isSome then enclose digits else ':' :: digits

/-- A term as text. -/
def text : List Char :=
  term.names ++ term.groupText

/-- What a term asks for in a mode. -/
def asked (merge : MergeMode) : IncludeTerm :=
  ⟨merge, term.file, term.map, term.group⟩

variable {term}

theorem not_mem_file {mark : Char} (isMark : mark ∈ ['+', '|', ':', '(', ')']) :
    mark ∉ (term.file.getD "").toList := by
  cases named : term.file with
  | none => simp
  | some file => exact (term.plainFile file named).not_mem isMark

theorem not_mem_names {mark : Char} (isMark : mark ∈ ['+', '|', ':']) : mark ∉ term.names := by
  have file := term.not_mem_file (List.mem_append_left ['(', ')'] isMark)
  rw [names, List.mem_append, not_or]
  refine ⟨file, ?_⟩
  cases named : term.map with
  | none => simp
  | some map =>
    have plain := (term.plainMap map named).not_mem (List.mem_append_left ['(', ')'] isMark)
    have apart : mark ≠ '(' ∧ mark ≠ ')' := by
      constructor
      all_goals
        rintro rfl
        simp at isMark
    simp [enclose, plain, apart]

theorem splitMap_names :
    splitMap term.names = some ((term.file.getD "").toList, term.map.map String.toList) := by
  have file : '(' ∉ (term.file.getD "").toList := term.not_mem_file (by simp)
  cases named : term.map with
  | none =>
    have whole : term.names = (term.file.getD "").toList := by simp [names, named]
    rw [whole, splitMap, splitAtFirst_of_absent file]
    rfl
  | some map =>
    have whole : term.names = (term.file.getD "").toList ++ '(' :: (map.toList ++ [')']) := by
      simp [names, named, enclose]
    have plain : (!map.toList.contains '(' && !map.toList.contains ')') = true := by
      simp [(term.plainMap map named).not_mem]
    rw [whole, splitMap, splitAtFirst_append file]
    dsimp only [guard]
    rw [dropClosing_append, Option.bind_eq_bind, Option.bind_some, if_pos plain]
    rfl

theorem getLast?_file : (term.file.getD "").toList.getLast? ≠ some ')' :=
  fun last => term.not_mem_file (by simp) (List.mem_of_getLast? last)

theorem getLast?_names : term.names.getLast? = some ')' ↔ term.map.isSome = true := by
  cases named : term.map with
  | none => simp [names, named, getLast?_file]
  | some map => simp [names, named, enclose, List.getLast?_cons]

/-- Without a group of its own, a term has none: its map is not taken for one. -/
theorem groupBehindMap_names : groupBehindMap term.names = none := by
  cases named : term.map with
  | none =>
    have whole : term.names = (term.file.getD "").toList := by simp [names, named]
    rw [whole, groupBehindMap, dropClosing, if_neg getLast?_file]
    rfl
  | some map =>
    have whole : term.names = (term.file.getD "").toList ++ enclose map.toList := by
      simp [names, named]
    rw [whole, groupBehindMap_enclose _ ((term.plainMap map named).not_mem (by simp)),
      if_neg getLast?_file]

theorem splitGroup_text : splitGroup term.text = some (term.names, term.group) := by
  have noColon : ':' ∉ term.names := not_mem_names (by simp)
  unfold text groupText
  cases grouped : term.group with
  | none =>
    rw [List.append_nil, splitGroup, splitAtFirst_of_absent noColon, groupBehindMap_names]
  | some group =>
    have read := groupNumber_toDigits group
    dsimp only
    split
    case isTrue behind =>
      have closed : term.names.getLast? = some ')' :=
        getLast?_names.mpr (Bool.and_eq_true_iff.mp behind).2
      have plain : ':' ∉ term.names ++ enclose (Nat.toDigits 10 group.toNat) := by
        simp [enclose, noColon, not_mem_toDigits]
      rw [splitGroup, splitAtFirst_of_absent plain,
        groupBehindMap_enclose _ (not_mem_toDigits (by simp) _), if_pos closed, read]
      rfl
    case isFalse =>
      rw [splitGroup, splitAtFirst_append noColon]
      exact congrArg (Option.map _) read

/-- A term is read as it was written. -/
theorem includeTerm_text (merge : MergeMode) :
    includeTerm merge term.text = some (term.asked merge) := by
  have file : (if (term.file.getD "").toList.isEmpty then none
      else some (String.ofList (term.file.getD "").toList)) = term.file := by
    cases named : term.file with
    | none => rfl
    | some file =>
      have some : file ≠ "" := fun empty => term.named (by rw [named, empty])
      simp [some]
  rw [includeTerm, splitGroup_text]
  dsimp only [Option.bind_eq_bind, Option.bind_some]
  rw [splitMap_names]
  dsimp only [Option.bind_some]
  rw [file]
  simp [asked]

theorem not_isTermOperator_text : ∀ c ∈ term.text, isTermOperator c = false := by
  intro c member
  have absent : ∀ mark ∈ ['+', '|'], mark ∉ term.text := by
    intro mark isMark
    have names := term.not_mem_names (List.mem_append_left [':'] isMark)
    have digits := not_mem_toDigits (List.mem_append_left [':', '(', ')'] isMark)
    have apart : mark ≠ ':' ∧ mark ≠ '(' ∧ mark ≠ ')' := by
      refine ⟨?_, ?_, ?_⟩
      all_goals
        rintro rfl
        simp at isMark
    unfold text groupText
    split
    · simpa using names
    · dsimp only
      split
      · simp [enclose, names, digits, apart]
      · simp [names, digits, apart]
  have apart : c ≠ '+' ∧ c ≠ '|' :=
    ⟨fun same => absent '+' (by simp) (same ▸ member), fun same => absent '|' (by simp) (same ▸ member)⟩
  simp [isTermOperator, apart]

end TermSpelling

end Terms

section Statements

/-- What joins two terms of an include text. -/
inductive TermOperator where
  | plus
  | bar

namespace TermOperator

def mark : TermOperator → Char
  | plus => '+'
  | bar => '|'

/-- The mode of the term behind an operator. -/
def mode : TermOperator → MergeMode
  | plus => .override
  | bar => .augment

end TermOperator

/-- A term and further ones behind their operators as text. -/
def spelledText (first : TermSpelling) (more : List (TermOperator × TermSpelling)) : String :=
  String.ofList (first.text ++ more.flatMap fun (operator, term) => operator.mark :: term.text)

/-- What terms behind operators ask for, the first of them in a given mode. -/
def spelledTerms (merge : MergeMode) (first : TermSpelling)
    (more : List (TermOperator × TermSpelling)) : List IncludeTerm :=
  first.asked merge :: more.map fun (operator, term) => term.asked operator.mode

theorem splitTerms_append {cs : List Char} (plain : ∀ c ∈ cs, isTermOperator c = false)
    (rest : List Char) :
    splitTerms (cs ++ rest) = (cs ++ (splitTerms rest).1, (splitTerms rest).2) := by
  induction cs with
  | nil => rfl
  | cons c cs ih =>
    have here := plain c (by simp)
    have others := ih fun c member => plain c (by simp [member])
    simp [splitTerms, here, others]

theorem splitTerms_spelledText (first : TermSpelling) (more : List (TermOperator × TermSpelling)) :
    splitTerms (spelledText first more).toList =
      (first.text, more.map fun (operator, term) => (operator.mark, term.text)) := by
  simp only [spelledText, String.toList_ofList]
  induction more generalizing first with
  | nil => rw [splitTerms_append first.not_isTermOperator_text]; simp [splitTerms]
  | cons joined more ih =>
    obtain ⟨operator, term⟩ := joined
    have joins : isTermOperator operator.mark = true := by cases operator <;> decide
    simp [splitTerms_append first.not_isTermOperator_text, splitTerms, joins, ih term]

/-- Every operator of a text has a piece of it behind itself. -/
theorem splitTerms_length (cs : List Char) :
    (splitTerms cs).2.length = cs.countP isTermOperator := by
  induction cs with
  | nil => rfl
  | cons c rest ih =>
    simp only [splitTerms, List.countP_cons]
    split <;> simp [ih]

theorem mapM_eq_some_iff {α β : Type} {make : α → Option β} {list : List α} {made : List β} :
    list.mapM make = some made ↔ List.Forall₂ (fun item value => make item = some value) list made := by
  induction list generalizing made with
  | nil => simp
  | cons item rest ih =>
    cases made with
    | nil => simp [Option.bind_eq_some_iff]
    | cons value values =>
      simp only [List.mapM_cons, List.forall₂_cons, ← ih, Option.bind_eq_bind,
        Option.bind_eq_some_iff]
      simp

variable {merge : MergeMode} {included : IncludeStatement} {term : IncludeTerm}

/-- What it takes for an include text to be read. -/
theorem includeStatement_eq_some_iff {text : String} :
    includeStatement merge text = some included ↔ ∃ first more,
      includeTerm merge (splitTerms text.toList).1 = some first ∧
      List.Forall₂ (fun piece term => includeTerm (operatorMode piece.1) piece.2 = some term)
        (splitTerms text.toList).2 more ∧
      (first :: more).countP IncludeTerm.isSelf ≤ 1 ∧ ⟨merge, text, first :: more⟩ = included := by
  simp [includeStatement, Option.bind_eq_some_iff, guard, mapM_eq_some_iff]

theorem includeStatement_spelledText (merge : MergeMode) (first : TermSpelling)
    (more : List (TermOperator × TermSpelling))
    (single : (spelledTerms merge first more).countP IncludeTerm.isSelf ≤ 1) :
    includeStatement merge (spelledText first more) =
      some ⟨merge, spelledText first more, spelledTerms merge first more⟩ := by
  have modes : ∀ operator : TermOperator, operatorMode operator.mark = operator.mode := by
    intro operator
    cases operator <;> rfl
  refine includeStatement_eq_some_iff.mpr ⟨_, _, ?_, ?_, single, rfl⟩
  · rw [splitTerms_spelledText]
    exact first.includeTerm_text merge
  · rw [splitTerms_spelledText, List.forall₂_map_left_iff, List.forall₂_map_right_iff,
      List.forall₂_same]
    rintro ⟨operator, term⟩ -
    exact modes operator ▸ term.includeTerm_text _

/-- A text that is read has a term more than operators, and at most one of the terms stands for the
including section. -/
theorem includeStatement_counts {text : String} (read : includeStatement merge text = some included) :
    included.terms.length = text.toList.countP isTermOperator + 1 ∧
      included.terms.countP IncludeTerm.isSelf ≤ 1 := by
  obtain ⟨first, more, -, moreRead, single, rfl⟩ := includeStatement_eq_some_iff.mp read
  refine ⟨?_, single⟩
  rw [List.length_cons, ← moreRead.length_eq, splitTerms_length]

/-- The terms of an include text are read back, the first in the given mode and each other one in
the mode of the operator in front of it. Each text that is read has a term more than operators, and
at most one of its terms names nothing. -/
theorem includeStatement_reads_terms (merge : MergeMode) :
    (∀ first more, (spelledTerms merge first more).countP IncludeTerm.isSelf ≤ 1 →
      includeStatement merge (spelledText first more) =
        some ⟨merge, spelledText first more, spelledTerms merge first more⟩) ∧
    ∀ text included, includeStatement merge text = some included →
      included.terms.length = text.toList.countP isTermOperator + 1 ∧
        included.terms.countP IncludeTerm.isSelf ≤ 1 :=
  ⟨includeStatement_spelledText merge, fun _ _ => includeStatement_counts⟩

/-- A file, a map of another one with a group between parentheses, and the including section itself
in a group. -/
theorem includeStatement_reads_terms_pc :
    ∃ first more, spelledText first more = "pc+us(intl)(2)|:3" ∧
      (spelledTerms .replace first more).countP IncludeTerm.isSelf ≤ 1 ∧
      spelledTerms .replace first more = [⟨.replace, some "pc", none, none⟩,
        ⟨.override, some "us", some "intl", some 2⟩, ⟨.augment, none, none, some 3⟩] ∧
      includeStatement .replace (spelledText first more) =
        some ⟨.replace, spelledText first more, spelledTerms .replace first more⟩ ∧
      (spelledTerms .replace first more).length =
        (spelledText first more).toList.countP isTermOperator + 1 := by
  let first : TermSpelling := ⟨some "pc", none, none, false, by decide, by decide, by decide⟩
  let more : List (TermOperator × TermSpelling) :=
    [(.plus, ⟨some "us", some "intl", some 2, true, by decide, by decide, by decide⟩),
      (.bar, ⟨none, none, some 3, true, by decide, by decide, by decide⟩)]
  have single : (spelledTerms .replace first more).countP IncludeTerm.isSelf ≤ 1 := by decide
  have read := (includeStatement_reads_terms .replace).1 first more single
  exact ⟨first, more, by decide, single, rfl, read,
    ((includeStatement_reads_terms .replace).2 _ _ read).1⟩

/-- The text that asks for a map of a file. -/
def includeText (file map : String) : String :=
  file ++ "(" ++ map ++ ")"

/-- The include text for a map of a file is read as one term. -/
theorem includeStatement_includeText {file map : String} (merge : MergeMode) (named : file ≠ "")
    (plainFile : PlainName file) (plainMap : PlainName map) :
    includeStatement merge (includeText file map) =
      some ⟨merge, includeText file map, [⟨merge, some file, some map, none⟩]⟩ := by
  let term : TermSpelling := ⟨some file, some map, none, false, by simpa using named,
    by simpa using plainFile, by simpa using plainMap⟩
  have written : includeText file map = spelledText term [] := by
    simp [← String.toList_inj, includeText, spelledText, TermSpelling.text, TermSpelling.names,
      TermSpelling.groupText, enclose, term]
  rw [written]
  exact includeStatement_spelledText merge term [] List.countP_le_length

/-- A text that is read as one term has no operator. -/
theorem includeStatement_single {text : String}
    (parsed : includeStatement merge text = some included) (single : included.terms = [term]) :
    splitTerms text.toList = (text.toList, []) ∧ includeTerm merge text.toList = some term ∧
      included = ⟨merge, text, [term]⟩ := by
  have plain := (includeStatement_counts parsed).1
  obtain ⟨first, more, firstRead, moreRead, -, rfl⟩ := includeStatement_eq_some_iff.mp parsed
  obtain ⟨rfl, rfl⟩ := List.cons.inj single
  have whole : splitTerms text.toList = (text.toList, []) := by
    rw [eq_comm, List.length_singleton, Nat.add_eq_right, List.countP_eq_zero] at plain
    have pieces := splitTerms_append (by simpa using plain) []
    rwa [List.append_nil, splitTerms, List.append_nil] at pieces
  rw [whole] at firstRead
  exact ⟨whole, firstRead, rfl⟩

/-- An operator in front of a term that stands alone puts the including section itself before the
term, and the term is in the mode of the operator. -/
theorem includeStatement_operator {operator : Char} (joins : isTermOperator operator = true)
    {text : String} (parsed : includeStatement (operatorMode operator) text = some included)
    (single : included.terms = [term]) (named : term.isSelf = false) (merge : MergeMode) :
    includeStatement merge (String.singleton operator ++ text) =
      some ⟨merge, String.singleton operator ++ text, [⟨merge, none, none, none⟩, term]⟩ := by
  obtain ⟨whole, termRead, -⟩ := includeStatement_single parsed single
  have pieces : splitTerms (String.singleton operator ++ text).toList =
      ([], [(operator, text.toList)]) := by
    simp [splitTerms, whole, joins]
  refine includeStatement_eq_some_iff.mpr ⟨⟨merge, none, none, none⟩, [term], ?_, ?_, ?_, rfl⟩
  · rw [pieces]
    rfl
  · rw [pieces]
    exact .cons termRead .nil
  · have first : IncludeTerm.isSelf ⟨merge, none, none, none⟩ = true := rfl
    simp [first, named]

end Statements

end Source

end Xkb
