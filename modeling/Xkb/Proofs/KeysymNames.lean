import Mathlib.Data.List.Nodup
import Xkb.Keysym.Basic
import Xkb.Proofs.Text.Numbers

/-! The name of a keysym is read back as the same keysym, apart from codes that carry the mark of a
Unicode character and a number that is no such character or has a code without the mark. -/

namespace Xkb.Keysym

section Bytes

/-! The table of names is checked on the bytes of the names, which takes far less evaluation than
their characters. -/

/-- The first byte of a text. -/
def firstByte (text : String) : Option UInt8 :=
  text.toByteArray.data.toList.head?

/-- A number that the names of the table do not share. -/
def byteKey (text : String) : Nat :=
  text.toByteArray.data.toList.foldl (fun key byte => key * 256 + byte.toNat) 0 % 65521

theorem firstByte_of_toList {text : String} {c : Char} {rest : List Char}
    (starts : text.toList = c :: rest) (ascii : c.toNat < 128) :
    firstByte text = some c.toNat.toUInt8 := by
  have single : c.utf8Size = 1 := by
    rw [Char.utf8Size_eq_one_iff, UInt32.le_iff_toNat_le]
    exact Nat.le_of_lt_succ ascii
  have spelled : text = String.ofList (c :: rest) := by rw [← starts, String.ofList_toList]
  rw [spelled, firstByte, String.toByteArray_ofList, List.utf8Encode_cons,
    List.utf8Encode_singleton, String.utf8EncodeChar_eq_singleton single]
  simp
  rfl

/-- Whether numbers differ from each other and from those that are seen as bits. -/
def areDistinct : Nat → List Nat → Bool
  | _, [] => true
  | seen, key :: rest => !seen.testBit key && areDistinct (seen ||| 1 <<< key) rest

theorem nodup_of_areDistinct {seen : Nat} {keys : List Nat} (checked : areDistinct seen keys = true) :
    keys.Nodup ∧ ∀ key ∈ keys, seen.testBit key = false := by
  induction keys generalizing seen with
  | nil => simp
  | cons key rest ih =>
    simp only [areDistinct, Bool.and_eq_true, Bool.not_eq_true'] at checked
    obtain ⟨distinct, unseen⟩ := ih checked.2
    simp only [Nat.testBit_or, Bool.or_eq_false_iff] at unseen
    have absent : key ∉ rest := by
      intro member
      have bit := (unseen key member).2
      simp at bit
    exact ⟨List.nodup_cons.mpr ⟨absent, distinct⟩,
      List.forall_mem_cons.mpr ⟨checked.1, fun other member => (unseen other member).1⟩⟩

end Bytes

section Table

theorem names_nodup : (names.map Prod.fst).Nodup := by
  have checked : areDistinct 0 (names.map fun entry => byteKey entry.1) = true := by decide +kernel
  have keys := (nodup_of_areDistinct checked).1
  refine List.Nodup.of_map byteKey ?_
  rwa [List.map_map]

/-- A text that is read as a number where it is no name. -/
def isNumeral : List Char → Bool
  | 'U' :: hex => !hex.isEmpty && hex.all (Text.isDigitOf 16)
  | '0' :: 'x' :: _ => true
  | _ => false

/-- The words for no and for a void symbol. -/
def words : List String :=
  ["any", "nosymbol", "none", "voidsymbol"]

variable {entry : String × Keysym}

theorem isUnicode_of_mem (member : entry ∈ names) : isUnicode entry.2 = false := by
  have checked : ∀ entry ∈ names, isUnicode entry.2 = false := by decide +kernel
  exact checked entry member

theorem not_isNumeral_of_mem (member : entry ∈ names) : isNumeral entry.1.toList = false := by
  have checked : ∀ entry ∈ names, (firstByte entry.1 = some 85 ∨ firstByte entry.1 = some 48) →
      isNumeral entry.1.toList = false := by decide +kernel
  have other := checked entry member
  unfold isNumeral
  split
  case h_1 hex starts =>
    have := other (.inl (firstByte_of_toList starts (by decide)))
    rwa [starts] at this
  case h_2 starts =>
    have := other (.inr (firstByte_of_toList starts (by decide)))
    rwa [starts] at this
  case h_3 => rfl

theorem toNat_of_toLower {c lower : Char} (same : c.toLower = lower) :
    c.toNat = lower.toNat ∨ c.toNat + 32 = lower.toNat := by
  rw [← same]
  unfold Char.toLower
  split
  case isTrue upper =>
    have small : c.val.toNat ≤ 90 := UInt32.le_iff_toNat_le.mp upper.2
    have fits : c.val.toNat + 32 < 2 ^ 32 := by omega
    exact .inr ((UInt32.toNat_add c.val 32).trans (Nat.mod_eq_of_lt fits)).symm
  case isFalse => exact .inl rfl

variable {text : String}

/-- A text that stands for a word in any case has one of these letters first. -/
theorem starts_of_foldCase (word : Text.foldCase text ∈ words) :
    ∃ c rest, text.toList = c :: rest ∧ c.toNat ∈ [65, 78, 86, 97, 110, 118] := by
  have heads : ∀ word ∈ words, word.toList.head? ∈ [some 'a', some 'n', some 'v'] := by decide
  obtain ⟨lower, head, code⟩ : ∃ lower, (Text.foldCase text).toList.head? = some lower ∧
      lower.toNat ∈ [97, 110, 118] := by
    have head := heads _ word
    simp only [List.mem_cons, List.not_mem_nil, or_false] at head
    rcases head with here | here | here <;> exact ⟨_, here, by decide⟩
  rw [Text.foldCase] at head
  cases spelled : text.toList with
  | nil => simp [spelled] at head
  | cons c rest =>
    have same : c.toLower = lower := by simpa [spelled] using head
    refine ⟨c, rest, rfl, ?_⟩
    have cases := toNat_of_toLower same
    simp only [List.mem_cons, List.not_mem_nil, or_false] at code ⊢
    omega

theorem foldCase_not_mem_words (member : entry ∈ names) : Text.foldCase entry.1 ∉ words := by
  have checked : ∀ entry ∈ names, (firstByte entry.1).any (· ∈ [65, 78, 86, 97, 110, 118]) →
      Text.foldCase entry.1 ∉ words := by decide +kernel
  intro word
  obtain ⟨c, rest, starts, among⟩ := starts_of_foldCase word
  have letters : ∀ code ∈ [65, 78, 86, 97, 110, 118], code < 128 ∧
      code.toUInt8 ∈ [65, 78, 86, 97, 110, 118] := by decide
  obtain ⟨ascii, byte⟩ := letters _ among
  refine checked entry member ?_ word
  rw [firstByte_of_toList starts ascii]
  exact decide_eq_true byte

theorem foldCase_numeral_not_mem_words (numeral : isNumeral text.toList = true) :
    Text.foldCase text ∉ words := by
  intro word
  obtain ⟨c, rest, starts, among⟩ := starts_of_foldCase word
  rw [starts] at numeral
  unfold isNumeral at numeral
  split at numeral
  case h_1 hex same =>
    cases same
    exact absurd among (by decide)
  case h_2 hex same =>
    cases same
    exact absurd among (by decide)
  case h_3 => cases numeral

theorem lookup_of_not_mem_words (other : Text.foldCase text ∉ words) :
    lookup text = ofName text := by
  simp only [words, List.mem_cons, not_or] at other
  simp [lookup, other]

/-- The name of an entry is read as its code. -/
theorem lookup_of_mem (member : entry ∈ names) : lookup entry.1 = some entry.2 := by
  have found : names.find? (fun other => other.1 == entry.1) = some entry := by
    cases first : names.find? (fun other => other.1 == entry.1) with
    | none => exact absurd (List.find?_eq_none.mp first entry member) (by simp)
    | some other =>
      have named : other.1 = entry.1 := by simpa using List.find?_some first
      rw [List.inj_on_of_nodup_map names_nodup (List.mem_of_find?_eq_some first) member named]
  rw [lookup_of_not_mem_words (foldCase_not_mem_words member), ofName, found]

/-- A text in the form of a number is no name. -/
theorem lookup_of_isNumeral (numeral : isNumeral text.toList = true) :
    lookup text = ofNumeral text.toList := by
  have unnamed : names.find? (fun entry => entry.1 == text) = none := by
    refine List.find?_eq_none.mpr fun entry member => ?_
    have other := not_isNumeral_of_mem member
    rw [beq_iff_eq]
    rintro rfl
    exact absurd (numeral.symm.trans other) (by decide)
  rw [lookup_of_not_mem_words (foldCase_numeral_not_mem_words numeral), ofName, unnamed]

end Table

section Numerals

variable (sym : Keysym)

theorem lookup_hexText : lookup (Text.hexText 8 sym.toNat) = some sym := by
  have spelled : (Text.hexText 8 sym.toNat).toList =
      '0' :: 'x' :: Text.padZeros 8 (Text.hexDigits sym.toNat) := by simp [Text.hexText]
  have value := Text.digitsValue_hexDigits 8 sym.toNat
  have read := Text.readNumber_of_digits (Text.padZeros_ne_nil 8 sym.toNat)
    (Text.isDigitOf_padZeros 8 sym.toNat)
    (show _ ≤ 0xffffffff by rw [value]; exact Nat.le_of_lt_succ sym.toNat_lt)
  rw [lookup_of_isNumeral (by rw [spelled]; rfl), spelled, ofNumeral, read, value, Option.map_some,
    Nat.toUInt32, UInt32.ofNat_toNat]

/-- The number behind the mark of a Unicode character. -/
def payload : Nat :=
  (sym &&& 0xffffff).toNat

theorem lookup_upperHexText :
    lookup ("U" ++ Text.upperHexText 4 sym.payload) = ofCodePoint sym.payload := by
  have spelled : ("U" ++ Text.upperHexText 4 sym.payload).toList =
      'U' :: (Text.padZeros 4 (Text.hexDigits sym.payload)).map Char.toUpper := by
    simp [Text.upperHexText]
  have digits : (!((Text.padZeros 4 (Text.hexDigits sym.payload)).map Char.toUpper).isEmpty &&
      ((Text.padZeros 4 (Text.hexDigits sym.payload)).map Char.toUpper).all (Text.isDigitOf 16))
      = true := by
    have every := List.all_eq_true.mpr (Text.isDigitOf_toUpper 4 sym.payload)
    simp [every, Text.padZeros_ne_nil]
  have value := Text.digitsValue_toUpper 4 sym.payload
  have read := Text.readDigits_of_digits (by simp [Text.padZeros_ne_nil])
    (Text.isDigitOf_toUpper 4 sym.payload)
    (show _ ≤ 0xffffffff by rw [value]; exact Nat.le_of_lt_succ (sym &&& 0xffffff).toNat_lt)
  rw [lookup_of_isNumeral (by rw [spelled]; exact digits), spelled, ofNumeral, if_pos digits, read,
    value, Option.bind_some]

/-- A code with the mark of a Unicode character is the code of its number just where this number is
beyond the codes that are themselves characters. -/
theorem ofCodePoint_payload (unicode : isUnicode sym = true) :
    ofCodePoint sym.payload = some sym ↔ 0x100 ≤ sym.payload ∧ sym.payload ≤ 0x10ffff := by
  have mark : sym &&& 0xff000000 = unicodeMark := by simpa [isUnicode] using unicode
  have large : 0x1000000 ≤ sym.toNat := by
    have bits : sym.toNat &&& 0xff000000 = 0x1000000 := by
      simpa [unicodeMark] using congrArg UInt32.toNat mark
    rw [← bits]
    exact Nat.and_le_left
  have whole : sym.payload.toUInt32 ||| unicodeMark = sym := by
    rw [payload, Nat.toUInt32, UInt32.ofNat_toNat, ← mark]
    refine UInt32.toBitVec_inj.mp (BitVec.and_or_distrib_left.symm.trans ?_)
    exact congrArg UInt32.toBitVec (UInt32.and_neg_one : sym &&& -1 = sym)
  unfold ofCodePoint
  simp only [Bool.or_eq_true, Bool.and_eq_true, decide_eq_true_eq]
  split
  case isTrue control => simpa using by omega
  case isFalse =>
    split
    case isTrue latin =>
      have apart : sym.payload.toUInt32 ≠ sym := by
        intro same
        rw [payload, Nat.toUInt32, UInt32.ofNat_toNat] at same
        rw [payload, same] at latin
        omega
      simpa [apart] using by omega
    case isFalse =>
      split
      case isTrue point => simpa [whole] using by omega
      case isFalse => simpa using by omega

end Numerals

/-- The name of a keysym is read back as the keysym, unless it has the mark of a Unicode character
and a number below 256, whose characters have codes without the mark, or one that is no code
point. -/
theorem lookup_name (sym : Keysym) :
    lookup sym.name = some sym ↔
      (isUnicode sym = true → 0x100 ≤ sym.payload ∧ sym.payload ≤ 0x10ffff) := by
  have plain : ∀ {text}, lookup text = some sym → isUnicode sym = false → (lookup text = some sym ↔
      (isUnicode sym = true → 0x100 ≤ sym.payload ∧ sym.payload ≤ 0x10ffff)) := by
    intro text read unmarked
    simp [read, unmarked]
  unfold name
  split
  case isTrue same =>
    rw [beq_iff_eq.mp same] at plain ⊢
    exact plain (by decide) (by decide)
  case isFalse =>
    split
    case isTrue same =>
      rw [beq_iff_eq.mp same] at plain ⊢
      exact plain (by decide) (by decide)
    case isFalse =>
      cases found : names.find? fun entry => entry.2 == sym with
      | some entry =>
        have member := List.mem_of_find?_eq_some found
        have same : entry.2 = sym := by simpa using List.find?_some found
        rw [← same] at plain ⊢
        exact plain (lookup_of_mem member) (isUnicode_of_mem member)
      | none =>
        cases unicode : isUnicode sym with
        | true =>
          dsimp only
          rw [if_pos rfl, ← payload, lookup_upperHexText, ofCodePoint_payload sym unicode]
          exact (imp_iff_right rfl).symm
        | false =>
          dsimp only
          rw [if_neg (by decide), ← unicode]
          exact plain (lookup_hexText sym) unicode

/-- The name of the letter A as a Unicode character is read as the letter itself, and that of the
first character as nothing. -/
theorem lookup_name_not_reversed :
    name 0x1000041 = "U0041" ∧ lookup "U0041" = some 0x41 ∧ lookup (name 0x1000000) = none := by
  decide +kernel

end Xkb.Keysym
