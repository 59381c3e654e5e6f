import Xkb.Proofs.Source.Spelling
import Xkb.Source.Section

/-! How statements and sections are spelled: a text put together from the texts of its tokens is
read as the statement, and the texts of statements between braces are read as a section. -/

namespace Xkb.Source

section Words

variable {cs rest more : List Char} {c : Char} {name : String} {limit : Nat}

theorem keyword_of_ident (found : ident cs = some (name, rest)) (word : String) :
    keyword word cs = if Text.foldCase name = word then some ((), rest) else none := by
  refine bind_of_some found ?_
  by_cases same : Text.foldCase name = word
  · rw [if_pos same, same, beq_self_eq_true]
    rfl
  · rw [if_neg same, beq_eq_false_iff_ne.mpr same]
    rfl

theorem keyword_absent (found : ident cs = some (name, rest)) {words : List String}
    (other : Text.foldCase name ∉ words) : ∀ word ∈ words, keyword word cs = none := by
  intro word member
  rw [keyword_of_ident found, if_neg]
  exact fun same => other (same ▸ member)

theorem keyword_opens (word : String) : Opens isIdentStart (keyword word) :=
  ident_opens.bind _

theorem ident_not_opens {α : Type} {reader : Scan α} {mark : Char}
    (found : ident cs = some (name, rest)) (opens : Opens (· == mark) reader)
    (other : isIdentStart mark = false) : reader cs = none := by
  obtain ⟨c, more, start, starts⟩ := ident_opens.starts found
  refine opens.other start (beq_eq_false_iff_ne.mpr fun same => ?_)
  rw [← same, starts] at other
  exact absurd other (by decide)

/-- The words in front of a statement that set its mode. -/
def mergeWords : List String :=
  ["include", "augment", "override", "replace", "alternate"]

theorem mergeWord_of_ident (found : ident cs = some (name, rest))
    (other : Text.foldCase name ∉ mergeWords) : mergeWord cs = none := by
  have absent := keyword_absent found other
  refine orElse_of_none (seqRight_of_none (absent _ (by decide))) ?_
  refine orElse_of_none (seqRight_of_none (absent _ (by decide))) ?_
  refine orElse_of_none (seqRight_of_none (absent _ (by decide))) ?_
  refine orElse_of_none (seqRight_of_none (absent _ (by decide))) ?_
  exact seqRight_of_none (absent _ (by decide))

theorem mergeWord_other (start : skip cs = c :: more) (other : isIdentStart c = false) :
    mergeWord cs = none := by
  have word (text : String) (mode : MergeMode) := (keyword_opens text).seqRight (pure mode)
  refine (word _ _).orElse_other start other ?_
  refine (word _ _).orElse_other start other ?_
  refine (word _ _).orElse_other start other ?_
  exact (word _ _).orElse_other start other ((word _ _).other start other)

theorem mergeWord_alternate (found : ident cs = some ("alternate", rest)) :
    mergeWord cs = some (.alternate, rest) := by
  have absent := keyword_absent found
    (show Text.foldCase "alternate" ∉ ["include", "augment", "override", "replace"] by decide)
  have present : keyword "alternate" cs = some ((), rest) := by
    rw [keyword_of_ident found, if_pos (by decide)]
  refine orElse_of_none (seqRight_of_none (absent _ (by decide))) ?_
  refine orElse_of_none (seqRight_of_none (absent _ (by decide))) ?_
  refine orElse_of_none (seqRight_of_none (absent _ (by decide))) ?_
  refine orElse_of_none (seqRight_of_none (absent _ (by decide))) ?_
  exact seqRight_of_some present rfl

/-- The words that start a statement of one kind only. -/
def declarationWords : List String :=
  ["alias", "virtual_modifiers", "interpret", "type", "key", "modifier_map", "mod_map", "modmap",
    "group"]

theorem declaration_of_ident (found : ident cs = some (name, rest))
    (other : Text.foldCase name ∉ declarationWords) :
    declaration limit cs = (indicatorMapStatement limit <|> indicatorNameStatement limit
      <|> (fun assigned => [Statement.assignment assigned]) <$> assignment limit) cs := by
  have absent := keyword_absent found other
  have noKey : keyName cs = none := ident_not_opens found keyName_opens (by decide)
  -- Each kind of statement is looked for in turn.
  refine orElse_of_none (bind_of_none noKey) ?_
  refine orElse_of_none (bind_of_none (absent "alias" (by decide))) ?_
  refine orElse_of_none (bind_of_none (absent "virtual_modifiers" (by decide))) ?_
  refine orElse_of_none (bind_of_none (absent "interpret" (by decide))) ?_
  refine orElse_of_none (bind_of_none (absent "type" (by decide))) ?_
  refine orElse_of_none (bind_of_none (absent "key" (by decide))) ?_
  have noMap : (keyword "modifier_map" <|> keyword "mod_map" <|> keyword "modmap") cs = none := by
    refine orElse_of_none (absent _ (by decide)) ?_
    refine orElse_of_none (absent _ (by decide)) ?_
    exact absent _ (by decide)
  refine orElse_of_none (bind_of_none noMap) ?_
  exact orElse_of_none (bind_of_none (absent "group" (by decide))) rfl

/-- A statement starts with a word, a key name or a sign. -/
theorem declaration_opens (limit : Nat) :
    Opens (fun c => isIdentStart c || c == '<' || c == '!') (declaration limit) := by
  intro cs absent
  have noWord : ∀ c ∈ (skip cs).head?, isIdentStart c = false := fun c head =>
    (Bool.or_eq_false_iff.mp (Bool.or_eq_false_iff.mp (absent c head)).1).1
  have noKey : ∀ c ∈ (skip cs).head?, (c == '<') = false := fun c head =>
    (Bool.or_eq_false_iff.mp (Bool.or_eq_false_iff.mp (absent c head)).1).2
  have noSign : ∀ c ∈ (skip cs).head?, (c == '!') = false := fun c head =>
    (Bool.or_eq_false_iff.mp (absent c head)).2
  have word (text : String) := keyword_opens text cs noWord
  refine orElse_of_none (bind_of_none (keyName_opens cs noKey)) ?_
  refine orElse_of_none (bind_of_none (word _)) ?_
  refine orElse_of_none (bind_of_none (word _)) ?_
  refine orElse_of_none (bind_of_none (word _)) ?_
  refine orElse_of_none (bind_of_none (word _)) ?_
  refine orElse_of_none (bind_of_none (word _)) ?_
  have noMap : (keyword "modifier_map" <|> keyword "mod_map" <|> keyword "modmap") cs = none :=
    orElse_of_none (word _) (orElse_of_none (word _) (word _))
  refine orElse_of_none (bind_of_none noMap) ?_
  refine orElse_of_none (bind_of_none (word _)) ?_
  refine orElse_of_none (bind_of_none (word _)) ?_
  have noIndicator : indicatorNameStatement limit cs = none :=
    bind_of_some (optional_of_none (word _)) (bind_of_none (word _))
  refine orElse_of_none noIndicator (map_of_none ?_)
  refine orElse_of_none (seqLeft_of_none (bind_of_none (punct_opens _ cs noSign))) ?_
  exact seqLeft_of_none (bind_of_none (bind_of_none (ident_opens cs noWord)))

end Words

section Declarations

variable {label equals digits ends word text : List Char}

/-- A text is read as one declaration, whatever comes after. -/
def Declares (text : List Char) (found : Statement) : Prop :=
  ∀ limit, text.length < limit → ∀ rest, declaration limit (text ++ rest) = some ([found], rest)

namespace Declares

variable {number : Nat} {quoted : List Char} {name : String}

/-- A key name with a code declares a key. -/
theorem keycode {name : KeyName} (visible : IsVisibleName name) (fits : number ≤ largestInteger)
    (named : Token name.label.toList label) (sign : Token ['='] equals)
    (counted : Token (Nat.toDigits 10 number) digits) (ended : Token [';'] ends) :
    Declares (label ++ (equals ++ (digits ++ ends)))
      (.keycode .unspecified name (Int64.ofNat number)) := by
  intro limit _ rest
  have clear : Clear [] (ends ++ rest) := Clear.token ended (by decide) (by simp)
  simp only [List.append_assoc]
  refine orElse_of_some ?_
  refine bind_of_some (keyName_label visible named _) ?_
  refine bind_of_some (punct_token sign _) ?_
  refine bind_of_some (integer_decimal fits counted clear.apart) ?_
  exact bind_of_some (punct_token ended rest) rfl

/-- A word and two key names declare an alias. -/
theorem keyAlias {name real : KeyName} {other : List Char} (visible : IsVisibleName name)
    (realVisible : IsVisibleName real) (keyed : Named "alias" word)
    (named : Token name.label.toList label) (sign : Token ['='] equals)
    (realNamed : Token real.label.toList other) (ended : Token [';'] ends) :
    Declares (word ++ (label ++ (equals ++ (other ++ ends))))
      (.keyAlias .unspecified name real) := by
  intro limit _ rest
  simp only [List.append_assoc]
  have angle : Clear [] (label ++ (equals ++ (other ++ (ends ++ rest)))) :=
    Clear.of_skip (skip_label named _) (by decide) (by simp)
  have found := keyed.reads angle.apart
  have noKey := ident_not_opens found keyName_opens (by decide)
  refine orElse_of_none (bind_of_none noKey) (orElse_of_some ?_)
  have isAlias : keyword "alias" _ = some ((), _) :=
    (keyword_of_ident found "alias").trans (if_pos (by decide))
  refine bind_of_some isAlias ?_
  refine bind_of_some (keyName_label visible named _) ?_
  refine bind_of_some (punct_token sign _) ?_
  refine bind_of_some (keyName_label realVisible realNamed _) ?_
  exact bind_of_some (punct_token ended rest) rfl

theorem indicatorNameStatement_reads {cs rest : List Char} {front : Option Unit} {limit : Nat}
    (fits : number ≤ largestInteger) (keyed : Named "indicator" word)
    (counted : Token (Nat.toDigits 10 number) digits) (sign : Token ['='] equals)
    (spelled : Token (Text.quoted name).toList quoted) (ended : Token [';'] ends)
    (room : quoted.length < limit)
    (fronted : optional (keyword "virtual") cs
      = some (front, word ++ (' ' :: digits ++ (equals ++ (quoted ++ (ends ++ rest)))))) :
    indicatorNameStatement limit cs
      = some ([.indicatorName .unspecified (Int64.ofNat number) (.text name) front.isSome],
        rest) := by
  have found := keyed.spaced (digits ++ (equals ++ (quoted ++ (ends ++ rest))))
  have isIndicator := (keyword_of_ident found "indicator").trans (if_pos (by decide))
  have clear : Clear [] (equals ++ (quoted ++ (ends ++ rest))) :=
    Clear.token sign (by decide) (by simp)
  have behind : Clear exprMarks (ends ++ rest) := Clear.token ended (by decide) (by decide)
  have spells : Spells quoted (.text name) := .operand (.text spelled)
  refine bind_of_some fronted ?_
  refine bind_of_some isIndicator ?_
  refine bind_of_some (integer_decimal fits counted.space clear.apart) ?_
  refine bind_of_some (punct_token sign _) ?_
  refine bind_of_some (spells limit room _ behind) ?_
  exact bind_of_some (punct_token ended rest) rfl

/-- A word with a number and a text declares the name of an indicator. -/
theorem indicatorName (fits : number ≤ largestInteger) (keyed : Named "indicator" word)
    (counted : Token (Nat.toDigits 10 number) digits) (sign : Token ['='] equals)
    (spelled : Token (Text.quoted name).toList quoted) (ended : Token [';'] ends) :
    Declares (word ++ (' ' :: digits ++ (equals ++ (quoted ++ ends))))
      (.indicatorName .unspecified (Int64.ofNat number) (.text name) false) := by
  intro limit room rest
  simp only [List.append_assoc]
  simp only [List.length_append] at room
  have found := keyed.spaced (digits ++ (equals ++ (quoted ++ (ends ++ rest))))
  refine (declaration_of_ident found (by decide)).trans ?_
  have isIndicator := (keyword_of_ident found "indicator").trans (if_pos (by decide))
  -- The map of an indicator would have its name right behind the word.
  have noText : stringLiteral (' ' :: (digits ++ (equals ++ (quoted ++ (ends ++ rest))))) = none := by
    obtain ⟨c, more, start, digit⟩ :=
      skip_decimal counted.space (equals ++ (quoted ++ (ends ++ rest)))
    refine stringLiteral_opens.other start (beq_eq_false_iff_ne.mpr ?_)
    rintro rfl
    exact absurd digit (by decide)
  have noMap : indicatorMapStatement limit
      (word ++ ' ' :: (digits ++ (equals ++ (quoted ++ (ends ++ rest))))) = none := by
    refine bind_of_some isIndicator ?_
    exact bind_of_none noText
  refine orElse_of_none noMap (orElse_of_some ?_)
  have noVirtual := keyword_absent found (show Text.foldCase "indicator" ∉ ["virtual"] by decide)
  exact indicatorNameStatement_reads fits keyed counted sign spelled ended (by omega)
    (optional_of_none (noVirtual _ (by decide)))

/-- Behind a further word the indicator is a virtual one. -/
theorem virtualIndicatorName {front : List Char} (fits : number ≤ largestInteger)
    (fronted : Named "virtual" front) (keyed : Named "indicator" word)
    (counted : Token (Nat.toDigits 10 number) digits) (sign : Token ['='] equals)
    (spelled : Token (Text.quoted name).toList quoted) (ended : Token [';'] ends) :
    Declares (front ++ (' ' :: word ++ (' ' :: digits ++ (equals ++ (quoted ++ ends)))))
      (.indicatorName .unspecified (Int64.ofNat number) (.text name) true) := by
  intro limit room rest
  simp only [List.append_assoc]
  simp only [List.length_append] at room
  have found := fronted.spaced
    (word ++ (' ' :: digits ++ (equals ++ (quoted ++ (ends ++ rest)))))
  refine (declaration_of_ident found (by decide)).trans ?_
  have noIndicator :=
    keyword_absent found (show Text.foldCase "virtual" ∉ ["indicator"] by decide)
  refine orElse_of_none (bind_of_none (noIndicator _ (by decide))) (orElse_of_some ?_)
  have isVirtual := (keyword_of_ident found "virtual").trans (if_pos (by decide))
  exact indicatorNameStatement_reads fits keyed.space counted sign spelled ended (by omega)
    (optional_of_some isVirtual)

/-- A name that is set to a value is an assignment. -/
theorem assignment {value : Expr}
    (free : Text.foldCase name ∉ "indicator" :: "virtual" :: declarationWords)
    (named : Named name word) (sign : Token ['='] equals) (spells : Spells text value)
    (ended : Token [';'] ends) :
    Declares (word ++ (equals ++ (text ++ ends)))
      (.assignment (assign (.ident name) value)) := by
  intro limit room rest
  simp only [List.append_assoc]
  simp only [List.length_append] at room
  have clear : Clear ['.', '['] (equals ++ (text ++ (ends ++ rest))) :=
    Clear.token sign (by decide) (by decide)
  have behind : Clear exprMarks (ends ++ rest) := Clear.token ended (by decide) (by decide)
  have found := named.reads clear.apart
  have absent := keyword_absent found free
  rw [declaration_of_ident found fun listed => free (by simp [listed])]
  refine orElse_of_none (bind_of_none (absent "indicator" (by decide))) ?_
  have noIndicator : indicatorNameStatement limit (word ++ (equals ++ (text ++ (ends ++ rest))))
      = none := by
    refine bind_of_some (optional_of_none (absent "virtual" (by decide))) ?_
    exact bind_of_none (absent "indicator" (by decide))
  refine orElse_of_none noIndicator (map_of_some ?_)
  -- Of the two kinds of assignment it is the one without a sign in front.
  have unsigned := ident_not_opens found (punct_opens '!') (by decide)
  refine orElse_of_none (seqLeft_of_none (bind_of_none unsigned)) ?_
  refine seqLeft_of_some ?_ (punct_token ended rest)
  have isTarget : target limit _ = some (.ident name, _) :=
    bind_of_some found (targetTail_ident clear)
  have hasValue : (punct '=' *> expression limit) (equals ++ (text ++ (ends ++ rest)))
      = some (value, ends ++ rest) :=
    seqRight_of_some (punct_token sign _) (spells limit (by omega) _ behind)
  refine bind_of_some isTarget ?_
  exact bind_of_some (optional_of_some hasValue) rfl

end Declares

/-- A text is read as one statement, whatever comes after. -/
def Stands (text : List Char) (found : Statement) : Prop :=
  ∀ limit, text.length < limit → ∀ rest,
    statement limit (text ++ rest) = .ok (some [found], rest)

namespace Stands

variable {found : Statement}

theorem plain (declares : Declares text found) (unmoded : ∀ rest, mergeWord (text ++ rest) = none) :
    Stands text found := by
  intro limit room rest
  simp only [statement, unmoded rest, attempt, declares limit room rest]

/-- A declaration that starts with another word than those for a mode is a statement. -/
theorem worded {name : String} (named : Named name word)
    (unmoded : Text.foldCase name ∉ mergeWords) (declares : Declares (word ++ ' ' :: text) found) :
    Stands (word ++ ' ' :: text) found := by
  refine plain declares fun rest => ?_
  rw [List.append_assoc]
  exact mergeWord_of_ident (named.spaced (text ++ rest)) unmoded

variable {name : KeyName}

theorem labelled (named : Token name.label.toList label) (declares : Declares (label ++ text) found) :
    Stands (label ++ text) found := by
  refine plain declares fun rest => ?_
  rw [List.append_assoc]
  exact mergeWord_other (skip_label named _) (by decide)

/-- A declaration behind the word for further keys of a name is a statement in that mode. -/
theorem alternate (moded : Named "alternate" word) (named : Token name.label.toList label)
    (declares : Declares (' ' :: label ++ text) found) :
    Stands (word ++ ' ' :: label ++ text) (found.withMerge .alternate) := by
  intro limit room rest
  simp only [List.length_append] at room ⊢
  have front := mergeWord_alternate (moded.spaced (label ++ (text ++ rest)))
  -- What follows is not the text of an include statement.
  have untexted : stringLiteral (' ' :: (label ++ (text ++ rest))) = none :=
    stringLiteral_opens.other (skip_label named.space (text ++ rest)) (by decide)
  have declared := declares limit (by simp only [List.length_append]; omega) rest
  simp only [List.append_assoc, List.cons_append] at declared ⊢
  simp [statement, front, untexted, declared]

end Stands

theorem statement_brace {cs more : List Char} (start : skip cs = '\x7d' :: more) (limit : Nat) :
    statement limit cs = .ok (none, cs) := by
  have noWord := mergeWord_other start (by decide)
  have noDeclaration : declaration limit cs = none :=
    (declaration_opens limit).other start (by decide)
  simp only [statement, noWord, attempt, noDeclaration]

theorem parse_pure {α : Type} (found : α) (cs : List Char) :
    (pure found : Parse α) cs = .ok (found, cs) :=
  rfl

theorem statements_stand {texts : List (List Char)} {found : List Statement} {limit count : Nat}
    {rest : List Char} (each : List.Forall₂ Stands texts found)
    (short : ∀ text ∈ texts, text.length < limit) (room : texts.length ≤ count)
    (ends : statement limit rest = .ok (none, rest)) :
    statements limit count (texts.flatten ++ rest) = .ok (found, rest) := by
  induction each generalizing count with
  | nil =>
    cases count with
    | zero => rfl
    | succ count => simp [statements, bind, StateT.bind, Except.bind, ends, parse_pure]
  | @cons text statement texts found first others ih =>
    cases count with
    | zero => simp at room
    | succ count =>
      have here := first limit (short text (by simp)) (texts.flatten ++ rest)
      have later := ih (fun other member => short other (by simp [member])) (by simpa using room)
      simp [statements, bind, StateT.bind, Except.bind, here, later, parse_pure]

end Declarations

section Sections

variable {texts : List (List Char)} {found : List Statement} {word title opens closes ends : List Char}
  {kind : SectionKind} {text : String}

theorem readSection_stands {keyword name : String} {limit : Nat}
    (unflagged : Text.lookupName sectionFlags keyword = none)
    (kindly : SectionKind.ofKeyword (Text.foldCase keyword) = some kind)
    (simple : kind.isComposite = false) (outlined : kind ≠ .geometry) (keyed : Named keyword word)
    (named : Token (Text.quoted name).toList title) (opened : Token ['\x7b'] opens)
    (closed : Token ['\x7d'] closes) (ended : Token [';'] ends)
    (each : List.Forall₂ Stands texts found) (short : ∀ text ∈ texts, text.length < limit)
    (room : texts.length ≤ limit) (rest : List Char) :
    readSection (limit + 1)
        (word ++ (title ++ (opens ++ (texts.flatten ++ (closes ++ (ends ++ rest))))))
      = .ok (⟨kind, name, 0, found, []⟩, rest) := by
  have quote : Clear [] (title ++ (opens ++ (texts.flatten ++ (closes ++ (ends ++ rest))))) := by
    obtain ⟨more, start⟩ := skip_quoted named _
    exact Clear.of_skip start (by decide) (by simp)
  have read := keyed.reads quote.apart
  have noFlag : sectionFlag _ = none := bind_of_some read (by rw [unflagged]; rfl)
  have flags := many_of_none noFlag limit
  have brace := statement_brace (closed (ends ++ rest)) limit
  have inside := statements_stand each short room brace
  have titled := stringLiteral_quoted named
    (opens ++ (texts.flatten ++ (closes ++ (ends ++ rest))))
  have opening := punct_token opened (texts.flatten ++ (closes ++ (ends ++ rest)))
  have closing := punct_token closed (ends ++ rest)
  have last := punct_token ended rest
  simp only [readSection, attempt, sectionKind, expect, bind, StateT.bind, Except.bind, flags, read,
    kindly, titled, opening, simple, outlined, Bool.false_eq_true, if_false, inside, closing,
    parse_pure, last, Option.getD_some, List.foldl_nil]

/-- The text of a section with nothing but blanks behind it is read as that section. -/
theorem parse_of_readSection {part : Section} {c : Char} {front blanks : List Char}
    (start : skip text.toList = c :: front)
    (read : readSection (text.toList.length + 1) (c :: front) = .ok (part, blanks))
    (blank : skip blanks = []) : parse text = .ok [part] := by
  -- At least one character was read, so the limit is not used up behind the section.
  obtain ⟨length, some⟩ : ∃ length, text.toList.length = length + 1 := by
    cases spelled : text.toList with
    | nil => simp [spelled, skip, skipFrom] at start
    | cons d more => exact ⟨more.length, rfl⟩
  rw [some] at read
  simp only [parse, some, sections, start, bind, Except.bind, read, blank]
  rfl

theorem length_le_flatten {text : List Char} (member : text ∈ texts) :
    text.length ≤ texts.flatten.length :=
  (List.sublist_flatten_of_mem member).length_le

theorem length_le_length_flatten (filled : ∀ text ∈ texts, text ≠ []) :
    texts.length ≤ texts.flatten.length := by
  induction texts with
  | nil => simp
  | cons text texts ih =>
    have here := List.length_pos_iff.mpr (filled text (by simp))
    have later := ih fun other member => filled other (by simp [member])
    simp only [List.length_cons, List.flatten_cons, List.length_append]
    omega

/-- A text that is one section of plain statements is read as that section. -/
theorem parse_stands {keyword name : String} {blanks : List Char}
    (unflagged : Text.lookupName sectionFlags keyword = none)
    (kindly : SectionKind.ofKeyword (Text.foldCase keyword) = some kind)
    (simple : kind.isComposite = false) (outlined : kind ≠ .geometry) (keyed : Named keyword word)
    (named : Token (Text.quoted name).toList title) (opened : Token ['\x7b'] opens)
    (closed : Token ['\x7d'] closes) (ended : Token [';'] ends)
    (each : List.Forall₂ Stands texts found) (filled : ∀ text ∈ texts, text ≠ [])
    (blank : skip blanks = [])
    (spelled : text.toList
      = word ++ (title ++ (opens ++ (texts.flatten ++ (closes ++ (ends ++ blanks)))))) :
    parse text = .ok [⟨kind, name, 0, found, []⟩] := by
  obtain ⟨c, more, first, starts, -⟩ := isIdent_iff.mp keyed.identifier
  -- Reading starts at the word, behind the blanks in front of it.
  have start : skip text.toList = c :: (more
      ++ (title ++ (opens ++ (texts.flatten ++ (closes ++ (ends ++ blanks)))))) := by
    rw [spelled, keyed.token, first]
    rfl
  have length := congrArg List.length spelled
  simp only [List.length_append] at length
  have brace := closed.length_pos
  have short : ∀ line ∈ texts, line.length < text.toList.length := by
    intro line member
    have := length_le_flatten member
    omega
  have few := length_le_length_flatten filled
  refine parse_of_readSection start ?_ blank
  have read := readSection_stands unflagged kindly simple outlined
    (Named.plain keyed.identifier) named opened closed ended each short (by omega) blanks
  rwa [first] at read

end Sections

end Xkb.Source
