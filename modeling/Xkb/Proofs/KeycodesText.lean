import Xkb.Proofs.Section.WrittenKeycodes
import Xkb.Proofs.Source.Statements

/-! The keycodes section of a keymap as text: it is read as the statements of the table of keycodes
and compiled to the same table. -/

namespace Xkb

open Source

theorem Text.indent_eq_map {lines : List String} (filled : ∀ line ∈ lines, line ≠ "") :
    indent lines = lines.map ("    " ++ ·) := by
  refine List.map_congr_left fun line member => ?_
  rw [if_neg]
  simpa using filled line member

namespace KeycodeTable

/-- The lines of a section that a table is written down with. -/
def lines (table : KeycodeTable) : List String :=
  s!"minimum = {table.low};" :: s!"maximum = {table.high};"
    :: (Keymap.codeLines table [] table.codes
      ++ (List.range 32).flatMap (Keymap.indicatorNameLines table)
      ++ table.aliases.map fun known => s!"alias {known.name.label} = {known.real.label};")

/-- The line break and the margin in front of a line. -/
def margin : List Char :=
  '\n' :: List.replicate 8 ' '

/-- A line of a section is read as a statement. -/
def ReadsAs (line : String) (statement : Statement) : Prop :=
  Stands (margin ++ line.toList) statement

variable {table : KeycodeTable} {chars text : List Char}

theorem token_margin (token : Token chars text) : Token chars (margin ++ text) :=
  token.blanks (by decide)

theorem named_margin {name : String} (identifier : isIdent name = true) :
    Named name (margin ++ name.toList) :=
  (Named.plain identifier).blanks (by decide)

theorem token_equals : Token ['='] [' ', '='] :=
  (Token.plain (by decide) []).space

theorem token_semicolon : Token [';'] [';'] :=
  Token.plain (by decide) []

theorem readsAs_bound {line field : String} {value : Nat} (identifier : isIdent field = true)
    (free : Text.foldCase field ∉ "indicator" :: "virtual" :: declarationWords)
    (unmoded : Text.foldCase field ∉ mergeWords) (fits : value ≤ largestInteger)
    (written : line = s!"{field} = {value};") : ReadsAs line (boundStatement field value) := by
  have named := named_margin identifier
  have spells : Spells (' ' :: Nat.toDigits 10 value) (.integer (Int64.ofNat value)) :=
    .operand (.decimal fits (Token.decimal value).space)
  have declares := Declares.assignment free named token_equals spells token_semicolon
  have spelled : margin ++ line.toList
      = (margin ++ field.toList) ++ ([' ', '='] ++ ((' ' :: Nat.toDigits 10 value) ++ [';'])) := by
    simp [written, toString]
  rw [ReadsAs, spelled]
  exact Stands.worded named unmoded declares

theorem readsAs_code {name : KeyName} {code : Nat} (visible : IsVisibleName name)
    (fits : code ≤ largestInteger) (isFurther : Bool) :
    let word := if isFurther then "alternate " else ""
    ReadsAs s!"{word}{name.label} = {code};"
      (.keycode (if isFurther then .alternate else .unspecified) name (Int64.ofNat code)) := by
  intro word
  have counted := (Token.decimal code).space
  cases isFurther with
  | false =>
    have named := token_margin (Token.label name)
    have declares := Declares.keycode visible fits named token_equals counted token_semicolon
    have spelled : margin ++ (s!"{word}{name.label} = {code};").toList
        = (margin ++ name.label.toList)
          ++ ([' ', '='] ++ ((' ' :: Nat.toDigits 10 code) ++ [';'])) := by
      simp [word, toString]
    rw [ReadsAs, spelled]
    exact Stands.labelled named declares
  | true =>
    have named := Token.label name
    have declares := Declares.keycode visible fits named.space token_equals counted token_semicolon
    have moded := named_margin (show isIdent "alternate" = true by decide)
    have spelled : margin ++ (s!"{word}{name.label} = {code};").toList
        = (margin ++ "alternate".toList) ++ ' ' :: name.label.toList
          ++ ([' ', '='] ++ ((' ' :: Nat.toDigits 10 code) ++ [';'])) := by
      simp [word, toString]
    rw [ReadsAs, spelled]
    exact Stands.alternate moded named declares

theorem readsAs_codeLines {codes : List Nat}
    (visible : ∀ code ∈ codes, (table.nameAt code).isEmpty = false → IsVisibleName (table.nameAt code))
    (fits : ∀ code ∈ codes, code ≤ largestInteger) (seen : List KeyName) :
    List.Forall₂ ReadsAs (Keymap.codeLines table seen codes) (table.codeStatements seen codes) := by
  induction codes generalizing seen with
  | nil => exact .nil
  | cons code codes ih =>
    have rest := ih (fun other member => visible other (by simp [member]))
      (fun other member => fits other (by simp [member]))
    rw [Keymap.codeLines, codeStatements]
    cases some : (table.nameAt code).isEmpty with
    | true => exact rest seen
    | false => exact .cons (readsAs_code (visible code (by simp) some) (fits code (by simp)) _) (rest _)

theorem readsAs_indicatorName {number : Nat} (fits : number ≤ largestInteger) (name : String)
    (isPhysical : Bool) :
    let word := if isPhysical then "" else "virtual "
    ReadsAs (s!"{word}indicator {number} = " ++ Text.quoted name ++ ";")
      (.indicatorName .unspecified (Int64.ofNat number) (.text name) (!isPhysical)) := by
  intro word
  have counted := Token.decimal number
  have quoted := (Token.quoted name).space
  have indicator : isIdent "indicator" = true := by decide
  cases isPhysical with
  | true =>
    have declares := Declares.indicatorName fits (named_margin indicator) counted token_equals quoted
      token_semicolon
    have spelled : margin ++ (s!"{word}indicator {number} = " ++ Text.quoted name ++ ";").toList
        = (margin ++ "indicator".toList) ++ (' ' :: Nat.toDigits 10 number
          ++ ([' ', '='] ++ ((' ' :: (Text.quoted name).toList) ++ [';']))) := by
      simp [word, toString]
    rw [ReadsAs, spelled]
    exact Stands.worded (named_margin indicator) (by decide) declares
  | false =>
    have fronted := named_margin (show isIdent "virtual" = true by decide)
    have declares := Declares.virtualIndicatorName fits fronted (Named.plain indicator) counted
      token_equals quoted token_semicolon
    have spelled : margin ++ (s!"{word}indicator {number} = " ++ Text.quoted name ++ ";").toList
        = (margin ++ "virtual".toList) ++ (' ' :: "indicator".toList ++ (' ' :: Nat.toDigits 10 number
          ++ ([' ', '='] ++ ((' ' :: (Text.quoted name).toList) ++ [';'])))) := by
      simp [word, toString]
    rw [ReadsAs, spelled]
    exact Stands.worded fronted (by decide) declares

theorem readsAs_indicatorNameLines {slots : List Nat} (small : ∀ slot ∈ slots, slot < 32) :
    List.Forall₂ ReadsAs (slots.flatMap (Keymap.indicatorNameLines table))
      (slots.flatMap table.indicatorStatements) := by
  induction slots with
  | nil => exact .nil
  | cons slot slots ih =>
    have rest := ih fun other member => small other (by simp [member])
    have fits : slot + 1 ≤ largestInteger := by
      have := small slot (by simp)
      unfold largestInteger
      omega
    rw [List.flatMap_cons, List.flatMap_cons, Keymap.indicatorNameLines, indicatorStatements]
    cases table.indicatorName slot with
    | none => exact rest
    | some name => exact .cons (readsAs_indicatorName fits name _) rest

theorem readsAs_alias {known : KeyAlias} (visible : IsVisibleName known.name)
    (realVisible : IsVisibleName known.real) :
    ReadsAs s!"alias {known.name.label} = {known.real.label};"
      (.keyAlias .unspecified known.name known.real) := by
  have keyed := named_margin (show isIdent "alias" = true by decide)
  have declares := Declares.keyAlias visible realVisible keyed (Token.label known.name).space
    token_equals (Token.label known.real).space token_semicolon
  have spelled : margin ++ (s!"alias {known.name.label} = {known.real.label};").toList
      = (margin ++ "alias".toList) ++ (' ' :: known.name.label.toList
        ++ ([' ', '='] ++ ((' ' :: known.real.label.toList) ++ [';']))) := by
    simp [toString]
  rw [ReadsAs, spelled]
  exact Stands.worded keyed (by decide) declares

theorem readsAs_lines (writable : table.Writable) : List.Forall₂ ReadsAs table.lines table.statements := by
  have fits : ∀ code ≤ highestKeycode, code ≤ largestInteger := by
    intro code legal
    unfold highestKeycode at legal
    unfold largestInteger
    omega
  have ordered := writable.ordered
  have highest := writable.highest
  have minimum : ReadsAs s!"minimum = {table.low};" (boundStatement "minimum" table.low) :=
    readsAs_bound (by decide) (by decide) (by decide) (fits table.low (by omega))
      (String.toList_inj.mp (by simp [toString]))
  have maximum : ReadsAs s!"maximum = {table.high};" (boundStatement "maximum" table.high) :=
    readsAs_bound (by decide) (by decide) (by decide) (fits table.high highest)
      (String.toList_inj.mp (by simp [toString]))
  have small : ∀ code ∈ table.codes, code ≤ largestInteger := by
    intro code member
    have within := mem_codes.mp member
    simp only [inRange, Bool.and_eq_true, decide_eq_true_eq] at within
    exact fits code (by omega)
  have codes := readsAs_codeLines (fun code _ => writable.keysVisible code) small []
  have lights := @readsAs_indicatorNameLines table (List.range 32) (by simp)
  have aliases : List.Forall₂ ReadsAs
      (table.aliases.map fun known => s!"alias {known.name.label} = {known.real.label};")
      (table.aliases.map fun known => .keyAlias .unspecified known.name known.real) := by
    rw [List.forall₂_map_left_iff, List.forall₂_map_right_iff, List.forall₂_same]
    intro known member
    obtain ⟨some, code, named⟩ := writable.aliasesReal known member
    refine readsAs_alias (writable.aliasesVisible known member) ?_
    rw [← named] at some ⊢
    exact writable.keysVisible code some
  unfold lines statements
  refine .cons minimum (.cons maximum ?_)
  exact List.rel_append (List.rel_append codes lights) aliases

theorem ReadsAs.filled {line : String} {statement : Statement} (reads : ReadsAs line statement) :
    line ≠ "" := by
  rintro rfl
  have none : Source.statement 10 (margin ++ "".toList ++ []) = .ok (none, margin) := rfl
  rw [reads 10 (by decide) []] at none
  exact absurd none (by simp)

theorem lines_filled (writable : table.Writable) : ∀ line ∈ table.lines, line ≠ "" :=
  ((List.forall₂_and_left _ _).mp
    ((readsAs_lines writable).imp fun _ _ reads => ⟨reads.filled, reads⟩)).1

end KeycodeTable

namespace Keymap

/-- The keycodes section as it stands in the text of a keymap. -/
def keycodesSource (keymap : Keymap) : String :=
  String.join ((Text.indent keymap.keycodesText).map (· ++ "\n"))

theorem text_eq_keycodesSource (keymap : Keymap) :
    ∃ rest, keymap.text = "xkb_keymap \x7b\n" ++ keymap.keycodesSource ++ rest := by
  refine ⟨String.join ((Text.indent ("" :: keymap.typesText ++ "" :: keymap.compatText
    ++ "" :: keymap.symbolsText) ++ ["\x7d;"]).map (· ++ "\n")), ?_⟩
  apply String.toList_inj.mp
  simp [text, lines, keycodesSource, Text.block, Text.indent]

theorem breaks_in_front (lines : List (List Char)) :
    '\n' :: lines.flatMap (· ++ ['\n']) = lines.flatMap ('\n' :: ·) ++ ['\n'] := by
  induction lines with
  | nil => rfl
  | cons line lines ih =>
    simp only [List.flatMap_cons, List.append_assoc]
    rw [← ih]
    rfl

variable {keymap : Keymap}

theorem toList_keycodesSource (writable : keymap.keycodes.Writable) :
    keymap.keycodesSource.toList = "    xkb_keycodes".toList
      ++ (' ' :: (Text.quoted (keymap.keycodes.name.getD "")).toList ++ ([' ', '\x7b']
        ++ ((keymap.keycodes.lines.map (KeycodeTable.margin ++ ·.toList)).flatten
          ++ ("\n    \x7d".toList ++ ([';'] ++ ['\n']))))) := by
  have body := Text.indent_eq_map (keymap.keycodes.lines_filled writable)
  -- All lines are set in by one step, and those of the table by one step more.
  have all : Text.indent keymap.keycodesText
      = ("    " ++ (sectionTitle "xkb_keycodes" keymap.keycodes.name ++ " \x7b"))
        :: (keymap.keycodes.lines.map fun line => "    " ++ ("    " ++ line)) ++ ["    \x7d;"] := by
    change Text.indent (Text.block _ keymap.keycodes.lines) = _
    rw [Text.block, body, Text.indent_eq_map]
    · simp
    · intro line member
      simp only [List.cons_append, List.mem_cons, List.mem_append, List.mem_map, List.not_mem_nil,
        or_false] at member
      rcases member with rfl | ⟨inner, -, rfl⟩ | rfl <;> simp
  have breaks := breaks_in_front
    (keymap.keycodes.lines.map fun line => List.replicate 8 ' ' ++ line.toList)
  rw [keycodesSource, all]
  simpa [sectionTitle, KeycodeTable.margin, List.flatMap_def,
    Function.comp_def] using congrArg (· ++ "    \x7d;\n".toList) breaks

theorem parse_keycodesSource (writable : keymap.keycodes.Writable) :
    parse keymap.keycodesSource = .ok
      [⟨.keycodes, keymap.keycodes.name.getD "", 0, keymap.keycodes.statements, []⟩] := by
  have keyed : Named "xkb_keycodes" "    xkb_keycodes".toList :=
    (Named.plain (by decide)).blanks (show "    ".toList.all isSpace = true by decide)
  have closed : Token ['\x7d'] "\n    \x7d".toList :=
    (Token.plain (by decide) []).blanks (show "\n    ".toList.all isSpace = true by decide)
  refine parse_stands (by decide) (by decide) (by decide) (by decide) keyed
    (Token.quoted _).space (Token.plain (by decide) []).space closed (Token.plain (by decide) [])
    (List.forall₂_map_left_iff.mpr (KeycodeTable.readsAs_lines writable)) ?_ (by decide)
    (toList_keycodesSource writable)
  simp [KeycodeTable.margin]

/-- The keycodes section that a keymap is printed with can be read, and compiling it, at any warning
level, makes the same table of keycodes with no report. -/
theorem compilePart_keycodesSource {keymap : Keymap} (writable : keymap.keycodes.Writable)
    (level : Nat) (library : Library) :
    ∃ part, parse keymap.keycodesSource = .ok [part] ∧
      Assembly.compilePart .override part (.start level library)
        = (some [], { Assembly.start level library with
            keymap := { Keymap.empty with
              keycodes := { keymap.keycodes with name := some (keymap.keycodes.name.getD "") } } }) :=
  ⟨_, parse_keycodesSource writable, Assembly.compilePart_statements writable level library _⟩

/-- A keymap with a key on two codes, an alias for it, and two indicators of which one is a physical
light. -/
def sharedKeymap : Keymap :=
  { Keymap.empty with
    keycodes := {
      name := none
      low := 9
      high := 12
      names := ((Vector.replicate 256 KeyName.empty).set 10 (.ofString "AE01")).set 12
        (.ofString "AE01")
      aliases := [⟨.ofString "ONE", .ofString "AE01"⟩]
      indicatorNames := ((Vector.replicate 32 none).set 0 (some "Caps \"Lock\"")).set 31 (some "")
      physical := bit32 31 } }

theorem sharedKeymap_writable : sharedKeymap.keycodes.Writable := by
  have keyAt : ∀ code, sharedKeymap.keycodes.nameAt code
      = if code = 10 ∨ code = 12 then KeyName.ofString "AE01" else KeyName.empty := by
    intro code
    simp only [sharedKeymap, KeycodeTable.nameAt, Vector.getElem?_set, Vector.getElem?_replicate]
    grind
  have keys : ∀ code, (sharedKeymap.keycodes.nameAt code).isEmpty = false →
      (code = 10 ∨ code = 12) ∧ sharedKeymap.keycodes.nameAt code = KeyName.ofString "AE01" := by
    intro code named
    rw [keyAt] at named ⊢
    split at named
    case isTrue here => exact ⟨here, if_pos here⟩
    case isFalse => exact absurd named (by decide)
  have lights : ∀ slot name, sharedKeymap.keycodes.indicatorName slot = some name →
      slot = 0 ∧ name = "Caps \"Lock\"" ∨ slot = 31 ∧ name = "" := by
    intro slot name taken
    simp only [sharedKeymap, KeycodeTable.indicatorName, Vector.getElem?_set,
      Vector.getElem?_replicate] at taken
    grind
  exact
    { lowest := by decide
      ordered := by decide
      highest := by decide
      inside := fun code named => by
        rcases (keys code named).1 with rfl | rfl <;> rfl
      keysVisible := fun code named => by
        rw [(keys code named).2]
        exact ⟨"AE01".toList, rfl, by decide, by decide, List.all_eq_true.mp (by decide)⟩
      aliasesVisible := List.forall_mem_singleton.mpr
        ⟨"ONE".toList, rfl, by decide, by decide, List.all_eq_true.mp (by decide)⟩
      aliasesDistinct := List.pairwise_singleton _ _
      aliasesFree := List.forall_mem_singleton.mpr fun code => by
        rw [keyAt]
        split <;> decide
      aliasesReal := List.forall_mem_singleton.mpr ⟨by decide, 10, keyAt 10⟩
      indicatorsDistinct := fun slot other name taken takenToo => by
        rcases lights slot name taken with ⟨rfl, rfl⟩ | ⟨rfl, rfl⟩ <;>
          rcases lights other _ takenToo with ⟨rfl, same⟩ | ⟨rfl, same⟩ <;> simp_all
      physicalNamed := by decide }

/-- A key on two codes is read back with both of them, beside an alias and the indicators. -/
theorem compilePart_keycodesSource_shared :
    sharedKeymap.keycodesSource = "    xkb_keycodes \"\" \x7b\n        minimum = 9;\n"
      ++ "        maximum = 12;\n        <AE01> = 10;\n        alternate <AE01> = 12;\n"
      ++ "        virtual indicator 1 = \"Caps \\\"Lock\\\"\";\n        indicator 32 = \"\";\n"
      ++ "        alias <ONE> = <AE01>;\n    \x7d;\n" ∧
    ∃ part, parse sharedKeymap.keycodesSource = .ok [part] ∧
      Assembly.compilePart .override part (.start 10 .empty)
        = (some [], { Assembly.start 10 .empty with
            keymap := { Keymap.empty with
              keycodes := { sharedKeymap.keycodes with name := some "" } } }) :=
  ⟨by decide +kernel, compilePart_keycodesSource sharedKeymap_writable 10 _⟩

end Keymap

end Xkb
