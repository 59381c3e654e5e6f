import Mathlib.Data.List.Induction
import Xkb.Proofs.Bits
import Xkb.Proofs.ModifierCalls
import Xkb.Proofs.Source.Spelling

/-! Masks as text: a sum of names is read back as the mask that it was made from. -/

namespace Xkb

namespace Source

variable {lookup : Lookup}

/-- A text is read as an expression that denotes a mask. -/
def SpellsMask (lookup : Lookup) (text : List Char) (mask : UInt32) : Prop :=
  ∃ expr, SpellsSum text expr ∧ expr.toMask lookup = .ok mask

/-- A text is read as a single operand that denotes a mask. -/
def NamesMask (lookup : Lookup) (word : List Char) (mask : UInt32) : Prop :=
  ∃ expr, SpellsOperand word expr ∧ expr.toMask lookup = .ok mask

variable {mask : UInt32} {masks : List UInt32}

theorem NamesMask.ident {name : String} (identifier : isIdent name = true)
    (known : lookup none name = some mask) : NamesMask lookup name.toList mask :=
  ⟨.ident name, .ident (.plain identifier),
    by simp only [Expr.toMask, Lookup.resolve, known]⟩

theorem wordOf_ofNat (number : Nat) : Expr.wordOf (Int64.ofNat number) = number.toUInt32 := by
  apply UInt32.toNat_inj.mp
  simp [Expr.wordOf]

theorem NamesMask.decimal {number : Nat} (fits : number ≤ largestInteger) :
    NamesMask lookup (toString number).toList number.toUInt32 :=
  ⟨.integer (Int64.ofNat number), .number fits, by rw [Expr.toMask, wordOf_ofNat]⟩

theorem NamesMask.sum {word : List Char} (named : NamesMask lookup word mask) :
    SpellsMask lookup word mask := by
  obtain ⟨expr, spells, value⟩ := named
  exact ⟨expr, .product (.unary (.operand spells)), value⟩

theorem SpellsMask.plus {text word : List Char} {other : UInt32}
    (left : SpellsMask lookup text mask) (right : NamesMask lookup word other) :
    SpellsMask lookup (text ++ '+' :: word) (mask ||| other) := by
  obtain ⟨first, firstSpells, firstValue⟩ := left
  obtain ⟨second, secondSpells, secondValue⟩ := right
  refine ⟨.binary .add first second, ?_, ?_⟩
  · have token : Token ['+'] ['+'] := Token.plain (by decide) []
    have joined := SpellsSum.join (.inl rfl) firstSpells (.token token word)
      (.unary (.operand secondSpells))
    simpa using joined
  · rw [Expr.toMask, firstValue, secondValue]
    rfl

variable {words : List String}

theorem SpellsMask.plusAll {text : List Char} (left : SpellsMask lookup text mask)
    (each : List.Forall₂ (fun word => NamesMask lookup word.toList) words masks) :
    SpellsMask lookup (text ++ words.flatMap fun word => '+' :: word.toList)
      (masks.foldl (· ||| ·) mask) := by
  induction each generalizing text mask with
  | nil => simpa using left
  | @cons word other words masks first _ ih =>
    have more := ih (left.plus first)
    simpa using more

theorem toList_plus_intercalate (some : words ≠ []) :
    '+' :: ("+".intercalate words).toList = words.flatMap fun word => '+' :: word.toList := by
  cases words with
  | nil => exact absurd rfl some
  | cons word words =>
    rw [String.toList_intercalate, List.map_cons, intercalate_cons, List.flatMap_map]
    simp

theorem spellsMask_sum (some : words ≠ [])
    (each : List.Forall₂ (fun word => NamesMask lookup word.toList) words masks) :
    SpellsMask lookup ("+".intercalate words).toList (masks.foldl (· ||| ·) 0) := by
  cases each with
  | nil => exact absurd rfl some
  | @cons word mask words masks first others =>
    have sum := first.sum.plusAll others
    have written := toList_plus_intercalate some
    rw [List.flatMap_cons, List.cons_append, List.cons_eq_cons] at written
    rw [written.2]
    simpa using sum

theorem getLsbD_foldl_or (masks : List UInt32) (mask : UInt32) (index : Nat) :
    (masks.foldl (· ||| ·) mask).toBitVec.getLsbD index
      = (mask.toBitVec.getLsbD index || masks.any (·.toBitVec.getLsbD index)) := by
  induction masks generalizing mask with
  | nil => simp
  | cons other masks ih => simp [ih, Bool.or_assoc]

section Tables

variable {mask : UInt32} {table : List (String × UInt32)}

/-- The bits that have a name of their own in a table. -/
def namedBits (table : List (String × UInt32)) : UInt32 :=
  table.foldl (fun bits entry => if isSingleBit entry.2 then bits ||| entry.2 else bits) 0

/-- Every bit that has a name of its own in a table is looked up by that name. -/
def Denotes (lookup : Lookup) (table : List (String × UInt32)) : Prop :=
  ∀ entry ∈ table, isSingleBit entry.2 = true →
    isIdent entry.1 = true ∧ lookup none entry.1 = some entry.2 ∧
      ∃ index < 32, entry.2 = bit32 index

theorem coveringNames_concat (mask : UInt32) (table : List (String × UInt32))
    (entry : String × UInt32) :
    coveringNames mask (table ++ [entry])
      = if isSingleBit entry.2 && meets32 mask entry.2
            && !meets32 (coveringNames mask table).2 entry.2 then
          ((coveringNames mask table).1 ++ [entry.1], (coveringNames mask table).2 ||| entry.2)
        else coveringNames mask table := by
  simp [coveringNames]

theorem namedBits_concat (table : List (String × UInt32)) (entry : String × UInt32) :
    namedBits (table ++ [entry])
      = if isSingleBit entry.2 then namedBits table ||| entry.2 else namedBits table := by
  simp [namedBits]

theorem coveringNames_denote (denotes : Denotes lookup table) :
    (coveringNames mask table).2 = mask &&& namedBits table ∧
      ∃ masks, List.Forall₂ (fun word => NamesMask lookup word.toList)
        (coveringNames mask table).1 masks ∧
        masks.foldl (· ||| ·) 0 = (coveringNames mask table).2 := by
  -- The names, the bits that they cover and the bits of the table grow side by side.
  induction table using List.reverseRecOn with
  | nil => exact ⟨by simp [coveringNames, namedBits], [], .nil, rfl⟩
  | append_singleton table entry ih =>
    obtain ⟨covered, masks, each, union⟩ := ih fun entry member =>
      denotes entry (List.mem_append_left _ member)
    have last := denotes entry (by simp)
    rw [coveringNames_concat, namedBits_concat]
    cases single : isSingleBit entry.2 with
    | false => exact ⟨covered, masks, each, union⟩
    | true =>
      obtain ⟨identifier, known, index, within, bit⟩ := last single
      have common := and_bit32 mask within
      have already := and_bit32 (coveringNames mask table).2 within
      rw [if_pos rfl, and_or_distrib32, ← covered]
      rw [← bit] at common already
      cases wanted : meets32 mask entry.2 with
      | false =>
        rw [wanted] at common
        simpa [common] using ⟨masks, each, union⟩
      | true =>
        rw [wanted] at common
        cases taken : meets32 (coveringNames mask table).2 entry.2 with
        | true =>
          rw [taken] at already
          refine ⟨?_, masks, each, union⟩
          simpa [common] using (or_of_and_eq32 already).symm
        | false =>
          refine ⟨by simp [common], masks ++ [entry.2], ?_, ?_⟩
          · exact List.rel_append each (.cons (.ident identifier known) .nil)
          · simp [union]

/-- A mask of bits that have names is read back from the sum of the names. -/
theorem spellsMask_maskNames (denotes : Denotes lookup table) (zero : lookup none "none" = some 0)
    (named : mask &&& namedBits table = mask) :
    SpellsMask lookup (maskNames mask table).toList mask := by
  unfold maskNames
  split
  case isTrue empty =>
    rw [beq_iff_eq.mp empty]
    exact (NamesMask.ident (by decide) zero).sum
  case isFalse some =>
    obtain ⟨covered, masks, each, union⟩ := @coveringNames_denote lookup mask table denotes
    rw [named] at covered
    have nothing : mask &&& ~~~mask = 0 := by simp
    rw [covered] at union
    have names : (coveringNames mask table).1 ≠ [] := by
      -- Without a single name the mask would be empty.
      intro none
      rw [none, List.forall₂_nil_left_iff] at each
      simp [← union, each] at some
    have sum := spellsMask_sum names each
    rw [union] at sum
    simpa only [covered, nothing, beq_self_eq_true, if_true] using sum

end Tables

end Source

open Source

/-- The words that stand for real modifiers in every mask. -/
def reservedModifierNames : List String :=
  realModifierNames ++ ["all", "none"]

theorem Text.sameName_comm (left right : String) : sameName left right = sameName right left :=
  Bool.beq_comm

theorem Text.sameName_congr {left right : String} (same : sameName left right = true)
    (other : String) : sameName left other = sameName right other := by
  rw [sameName, sameName, beq_iff_eq.mp same]

theorem Text.sameName_trans {left middle right : String} (first : sameName left middle = true)
    (second : sameName middle right = true) : sameName left right = true :=
  (sameName_congr first right).trans second

namespace VirtualModifiers

variable {modifiers : VirtualModifiers}

/-- Every virtual modifier has a name of its own that is an identifier and means nothing else. -/
structure Readable (modifiers : VirtualModifiers) : Prop where
  identifier : ∀ slot known, modifiers.get? slot = some known → isIdent known.name = true
  unreserved : ∀ slot known, modifiers.get? slot = some known →
    ∀ word ∈ reservedModifierNames, Text.sameName known.name word = false
  distinct : ∀ slot known other same, modifiers.get? slot = some known →
    modifiers.get? other = some same → Text.sameName known.name same.name = true → slot = other

variable {slot : Nat} {known : VirtualModifier} {name : String} (mask : ModMask)

theorem maskLookup_of_real {mask : UInt32} (real : Lookup.modifierMasks none name = some mask) :
    modifiers.maskLookup none name = some mask := by
  simp [maskLookup, real]

/-- A name that is not reserved stands for no real modifiers. -/
theorem modifierMasks_of_unreserved
    (unreserved : ∀ word ∈ reservedModifierNames, Text.sameName name word = false) :
    Lookup.modifierMasks none name = none := by
  have all : Text.sameName name "all" = false := unreserved "all" (by decide)
  have none : Text.sameName name "none" = false := unreserved "none" (by decide)
  have unknown : realModifierIndex name = Option.none := by
    rw [realModifierIndex, List.findIdx?_eq_none_iff]
    intro word member
    rw [Text.sameName_comm, unreserved word (List.mem_append_left _ member)]
  simp [Lookup.modifierMasks, all, none, unknown]

theorem Readable.index_name (readable : modifiers.Readable)
    (taken : modifiers.get? slot = some known) : modifiers.index known.name = some slot := by
  have itself : Text.sameName known.name known.name = true := beq_self_eq_true _
  cases found : modifiers.index known.name with
  | none => simp [sameName_of_index_none found taken] at itself
  | some other =>
    -- The slot that is found has the same name, so it is this one.
    obtain ⟨same, takenToo, alike⟩ := index_eq_some found
    rw [readable.distinct other same slot known takenToo taken alike]

theorem Readable.namesMask (readable : modifiers.Readable)
    (taken : modifiers.get? slot = some known) :
    NamesMask modifiers.maskLookup known.name.toList (bit32 (8 + slot)) := by
  refine .ident (readable.identifier slot known taken) ?_
  have unreal := modifierMasks_of_unreserved (readable.unreserved slot known taken)
  simp [maskLookup, unreal, readable.index_name taken]

/-- What a slot is read back as: its bit, but its number where it has no name. -/
def slotMask (modifiers : VirtualModifiers) (slot : Nat) : UInt32 :=
  if (modifiers.get? slot).isSome then bit32 (8 + slot) else slot.toUInt32

theorem Readable.namesMask_slotText (readable : modifiers.Readable) (within : slot < 16) :
    NamesMask modifiers.maskLookup (modifiers.slotText slot).toList (modifiers.slotMask slot) := by
  cases taken : modifiers.get? slot with
  | some known => simpa [slotText, slotMask, taken] using readable.namesMask taken
  | none =>
    have fits : slot ≤ largestInteger := by
      rw [largestInteger]
      omega
    simpa [slotText, slotMask, taken] using NamesMask.decimal fits

variable {index : Nat}

theorem namesMask_real (within : index < 8) :
    NamesMask modifiers.maskLookup (realModifierName index).toList (bit32 index) := by
  have known : ∀ index < 8, isIdent (realModifierName index) = true ∧
      Lookup.modifierMasks none (realModifierName index) = some (bit32 index) := by
    decide +kernel
  exact .ident (known index within).1 (maskLookup_of_real (known index within).2)

theorem foldl_or_bits (mask : UInt8) :
    (((List.range 8).filter fun index => meets8 mask (bit8 index)).map bit32).foldl (· ||| ·) 0
      = mask.toUInt32 := by
  apply UInt32.toBitVec_inj.mp
  apply BitVec.eq_of_getLsbD_eq
  intro index _
  rw [getLsbD_foldl_or, Bool.eq_iff_iff]
  simp only [UInt32.toBitVec_zero, BitVec.getLsbD_zero, Bool.false_or, List.any_map,
    List.any_eq_true, List.mem_filter, List.mem_range, Function.comp_apply,
    UInt8.toBitVec_toUInt32, BitVec.getLsbD_setWidth, Bool.and_eq_true, decide_eq_true_eq]
  constructor
  · rintro ⟨place, ⟨within, present⟩, here⟩
    rw [getLsbD_bit32 (by omega), decide_eq_true_eq] at here
    rw [meets8_eq_getLsbD within, here] at present
    exact ⟨by omega, present⟩
  · rintro ⟨_, present⟩
    have within : index < 8 := BitVec.lt_of_getLsbD present
    exact ⟨index, ⟨within, by rwa [meets8_eq_getLsbD within]⟩,
      by rw [getLsbD_bit32 (by omega), decide_eq_true_eq]⟩

theorem spellsMask_real (mask : UInt8) :
    SpellsMask modifiers.maskLookup (realModifiersText mask).toList mask.toUInt32 := by
  unfold realModifiersText
  split
  case isTrue empty =>
    rw [beq_iff_eq.mp empty]
    exact (NamesMask.ident (by decide) (maskLookup_of_real (by decide))).sum
  case isFalse some =>
    split
    case isTrue full =>
      rw [beq_iff_eq.mp full]
      exact (NamesMask.ident (by decide) (maskLookup_of_real (by decide))).sum
    case isFalse =>
      rw [← foldl_or_bits mask]
      refine spellsMask_sum ?_ ?_
      · -- Without a single word the mask would be empty.
        intro none
        have empty : mask.toUInt32 = 0 := by
          rw [← foldl_or_bits mask, List.map_eq_nil_iff.mp none]
          rfl
        exact some (beq_iff_eq.mpr (UInt8.toUInt32_inj.mp empty))
      · rw [List.forall₂_map_left_iff, List.forall₂_map_right_iff, List.forall₂_same]
        intro index member
        exact namesMask_real (List.mem_range.mp (List.mem_of_mem_filter member))

/-- The slots of a set of virtual modifiers. -/
def slotsOf (mask : UInt16) : List Nat :=
  (List.range 16).filter fun slot => meets16 mask (bit16 slot)

/-- The slots are the bits. -/
theorem mem_slotsOf {mask : UInt16} : slot ∈ slotsOf mask ↔ mask.toBitVec.getLsbD slot = true := by
  rw [slotsOf, List.mem_filter, List.mem_range]
  constructor
  · rintro ⟨within, present⟩
    rwa [meets16_eq_getLsbD within] at present
  · intro present
    have within : slot < 16 := BitVec.lt_of_getLsbD present
    exact ⟨within, by rwa [meets16_eq_getLsbD within]⟩

theorem slotsOf_eq_nil {mask : UInt16} : slotsOf mask = [] ↔ mask = 0 := by
  constructor
  · intro none
    apply UInt16.toBitVec_inj.mp
    apply BitVec.eq_of_getLsbD_eq
    intro slot _
    have absent : ¬mask.toBitVec.getLsbD slot = true := by simp [← mem_slotsOf, none]
    simpa using absent
  · rintro rfl
    decide

/-- What the text of a mask is read back as, in one word: the modifiers that have names, and the
numbers of the slots that have none. -/
def readPacked (modifiers : VirtualModifiers) (mask : ModMask) : UInt32 :=
  ((slotsOf mask.virtual).map modifiers.slotMask).foldl (· ||| ·) mask.real.toUInt32

theorem Readable.spellsMask (readable : modifiers.Readable) (mask : ModMask) :
    SpellsMask modifiers.maskLookup (modifiers.maskText mask).toList (modifiers.readPacked mask) := by
  have words : List.Forall₂ (fun word => NamesMask modifiers.maskLookup word.toList)
      ((slotsOf mask.virtual).map modifiers.slotText)
      ((slotsOf mask.virtual).map modifiers.slotMask) := by
    rw [List.forall₂_map_left_iff, List.forall₂_map_right_iff, List.forall₂_same]
    intro slot member
    exact readable.namesMask_slotText (List.mem_range.mp (List.mem_of_mem_filter member))
  unfold maskText readPacked
  split
  case isTrue empty =>
    rw [slotsOf_eq_nil.mpr (beq_iff_eq.mp empty)]
    exact spellsMask_real mask.real
  case isFalse some =>
    have some : (slotsOf mask.virtual).map modifiers.slotText ≠ [] := by
      simpa [slotsOf_eq_nil] using some
    split
    case isTrue unreal =>
      rw [beq_iff_eq.mp unreal]
      exact spellsMask_sum some words
    case isFalse =>
      have sum := (spellsMask_real mask.real).plusAll words
      rw [← toList_plus_intercalate some] at sum
      simpa [virtualText, slotsOf] using sum

theorem getLsbD_readPacked (index : Nat) :
    (modifiers.readPacked mask).toBitVec.getLsbD index = true ↔
      mask.real.toBitVec.getLsbD index = true ∨
        ∃ slot ∈ slotsOf mask.virtual, (modifiers.slotMask slot).toBitVec.getLsbD index = true := by
  rw [readPacked, getLsbD_foldl_or]
  simp only [UInt8.toBitVec_toUInt32, BitVec.getLsbD_setWidth, Bool.or_eq_true, Bool.and_eq_true,
    decide_eq_true_eq, List.any_map, List.any_eq_true]
  refine or_congr_left ⟨And.right, fun present => ⟨?_, present⟩⟩
  have within : index < 8 := BitVec.lt_of_getLsbD present
  omega

theorem getLsbD_packed (index : Nat) :
    mask.packed.toBitVec.getLsbD index = true ↔
      mask.real.toBitVec.getLsbD index = true ∨
        ∃ slot ∈ slotsOf mask.virtual, 8 + slot = index := by
  simp only [ModMask.packed, UInt32.toBitVec_or, UInt32.toBitVec_shiftLeft,
    UInt8.toBitVec_toUInt32, UInt16.toBitVec_toUInt32, BitVec.getLsbD_or, Bool.or_eq_true,
      mem_slotsOf]
  have shift : (8 : UInt32).toBitVec % 32 = 8#32 := by decide
  simp only [shift, BitVec.shiftLeft_eq', BitVec.toNat_ofNat, BitVec.getLsbD_shiftLeft, BitVec.getLsbD_setWidth,
    Bool.and_eq_true, decide_eq_true_eq, Bool.not_eq_true', decide_eq_false_iff_not]
  constructor
  · rintro (⟨_, present⟩ | ⟨⟨_, above⟩, _, present⟩)
    · exact .inl present
    · exact .inr ⟨index - 8, present, by omega⟩
  · rintro (present | ⟨slot, present, rfl⟩)
    · have within : index < 8 := BitVec.lt_of_getLsbD present
      exact .inl ⟨by omega, present⟩
    · have within : slot < 16 := BitVec.lt_of_getLsbD present
      refine .inr ⟨⟨by omega, by omega⟩, by omega, ?_⟩
      simpa using present

theorem readPacked_of_named {mask : ModMask}
    (named : ∀ slot ∈ slotsOf mask.virtual, (modifiers.get? slot).isSome) :
    modifiers.readPacked mask = mask.packed := by
  apply UInt32.toBitVec_inj.mp
  apply BitVec.eq_of_getLsbD_eq
  intro index _
  rw [Bool.eq_iff_iff, getLsbD_readPacked, getLsbD_packed]
  refine or_congr_right (exists_congr fun slot => and_congr_right fun member => ?_)
  have within : slot < 16 := List.mem_range.mp (List.mem_of_mem_filter member)
  rw [slotMask, if_pos (named slot member), getLsbD_bit32 (by omega), decide_eq_true_eq]

theorem getLsbD_ofPacked_real (word : UInt32) (within : index < 8) :
    (ModMask.ofPacked word).real.toBitVec.getLsbD index = word.toBitVec.getLsbD index := by
  simp [ModMask.ofPacked, within]

theorem getLsbD_ofPacked_virtual (word : UInt32) (within : slot < 16) :
    (ModMask.ofPacked word).virtual.toBitVec.getLsbD slot = word.toBitVec.getLsbD (8 + slot) := by
  simp [ModMask.ofPacked, within]

theorem ofPacked_packed : ModMask.ofPacked mask.packed = mask := by
  refine ModMask.eq_of_toBitVec (BitVec.eq_of_getLsbD_eq fun index within => ?_)
    (BitVec.eq_of_getLsbD_eq fun slot within => ?_)
  · rw [getLsbD_ofPacked_real _ within, Bool.eq_iff_iff, getLsbD_packed]
    refine or_iff_left ?_
    rintro ⟨slot, _, here⟩
    omega
  · rw [getLsbD_ofPacked_virtual _ within, Bool.eq_iff_iff, getLsbD_packed]
    constructor
    · rintro (present | ⟨other, member, here⟩)
      · have low : 8 + slot < 8 := BitVec.lt_of_getLsbD present
        omega
      · rw [mem_slotsOf] at member
        rwa [show slot = other by omega]
    · exact fun present => .inr ⟨slot, mem_slotsOf.mpr present, rfl⟩

theorem readPacked_of_unnamed (unnamed : modifiers.get? slot = none) :
    (modifiers.readPacked mask).toBitVec.getLsbD (8 + slot) = false := by
  rw [Bool.eq_false_iff, ne_eq, getLsbD_readPacked]
  rintro (real | ⟨other, taken, here⟩)
  · have low : 8 + slot < 8 := BitVec.lt_of_getLsbD real
    omega
  · have within : other < 16 := List.mem_range.mp (List.mem_of_mem_filter taken)
    unfold slotMask at here
    split at here
    case isTrue named =>
      -- Another slot has another bit.
      rw [getLsbD_bit32 (by omega), decide_eq_true_eq] at here
      rw [show other = slot by omega, unnamed] at named
      simp at named
    case isFalse =>
      -- The number of a slot takes no more than four bits.
      have small : other.toUInt32.toBitVec.toNat < 2 ^ (8 + slot) := by
        have bound : 2 ^ 8 ≤ 2 ^ (8 + slot) := Nat.pow_le_pow_right (by decide) (by omega)
        have number : other.toUInt32.toNat = other := by
          rw [UInt32.toNat_ofNat']
          omega
        rw [UInt32.toNat_toBitVec]
        omega
      rw [BitVec.getLsbD, Nat.testBit_lt_two_pow small] at here
      contradiction

/-- What the text of a mask is read back as. -/
def readMask (modifiers : VirtualModifiers) (mask : ModMask) : ModMask :=
  ModMask.ofPacked (modifiers.readPacked mask)

theorem readMask_eq_iff {mask : ModMask} :
    modifiers.readMask mask = mask ↔
      ∀ slot ∈ slotsOf mask.virtual, (modifiers.get? slot).isSome := by
  constructor
  · intro same slot member
    rw [← Option.not_isNone, Bool.not_eq_true', Bool.eq_false_iff, ne_eq, Option.isNone_iff_eq_none]
    intro unnamed
    have within : slot < 16 := List.mem_range.mp (List.mem_of_mem_filter member)
    have absent := readPacked_of_unnamed mask unnamed
    rw [← getLsbD_ofPacked_virtual _ within] at absent
    change (modifiers.readMask mask).virtual.toBitVec.getLsbD slot = false at absent
    rw [same, mem_slotsOf.mp member] at absent
    contradiction
  · intro named
    rw [readMask, readPacked_of_named named, ofPacked_packed]

/-- Every modifier of a table was there before under its name, whatever it is bound to. -/
def NamedAsIn (before after : VirtualModifiers) : Prop :=
  ∀ slot known, after.get? slot = some known →
    ∃ old, before.get? slot = some old ∧ old.name = known.name

theorem Readable.named_as {before after : VirtualModifiers} (readable : before.Readable)
    (kept : NamedAsIn before after) : after.Readable where
  identifier slot known taken := by
    obtain ⟨old, takenBefore, same⟩ := kept slot known taken
    exact same ▸ readable.identifier slot old takenBefore
  unreserved slot known taken := by
    obtain ⟨old, takenBefore, same⟩ := kept slot known taken
    exact same ▸ readable.unreserved slot old takenBefore
  distinct slot known other second taken takenToo alike := by
    obtain ⟨old, takenBefore, same⟩ := kept slot known taken
    obtain ⟨older, takenBeforeToo, sameToo⟩ := kept other second takenToo
    rw [← same, ← sameToo] at alike
    exact readable.distinct slot old other older takenBefore takenBeforeToo alike

theorem Readable.add (readable : modifiers.Readable) {new : VirtualModifier} (within : slot < 16)
    (identifier : isIdent new.name = true)
    (unreserved : ∀ word ∈ reservedModifierNames, Text.sameName new.name word = false)
    (unknown : modifiers.index new.name = none) : (modifiers.set slot new).Readable where
  identifier place known taken := by
    rw [get?_set _ _ within] at taken
    split at taken
    · cases taken
      exact identifier
    · exact readable.identifier place known taken
  unreserved place known taken := by
    rw [get?_set _ _ within] at taken
    split at taken
    · cases taken
      exact unreserved
    · exact readable.unreserved place known taken
  distinct place known other second taken takenToo alike := by
    rw [get?_set _ _ within] at taken takenToo
    split at taken <;> split at takenToo
    case isTrue.isTrue here hereToo => exact here.symm.trans hereToo
    case isTrue.isFalse =>
      cases taken
      simp [Text.sameName_comm new.name, sameName_of_index_none unknown takenToo] at alike
    case isFalse.isTrue =>
      cases takenToo
      simp [sameName_of_index_none unknown taken] at alike
    case isFalse.isFalse =>
      exact readable.distinct place known other second taken takenToo alike

/-- The tables that are reached by definitions of names that are identifiers and not reserved. -/
inductive Defined : VirtualModifiers → Prop
  | empty : Defined .empty
  | define {modifiers after : VirtualModifiers} {name : String} {real : Option UInt8}
      {merge : MergeMode} {log : Diagnostics} {slot : Nat} (before : Defined modifiers)
      (identifier : isIdent name = true)
      (unreserved : ∀ word ∈ reservedModifierNames, Text.sameName name word = false)
      (success : (modifiers.define name real merge log).1 = .ok (after, slot)) : Defined after

/-- A mask whose virtual modifiers all have names is denoted by its text. -/
theorem Readable.maskOf (readable : modifiers.Readable) {mask : ModMask}
    (named : ∀ slot ∈ slotsOf mask.virtual, (modifiers.get? slot).isSome) :
    ∃ expr, SpellsSum (modifiers.maskText mask).toList expr ∧
      expr.toMask modifiers.maskLookup = .ok mask.packed ∧ modifiers.maskOf expr = .ok mask := by
  obtain ⟨expr, spells, value⟩ := readable.spellsMask mask
  rw [readPacked_of_named named] at value
  refine ⟨expr, spells, value, ?_⟩
  rw [VirtualModifiers.maskOf, value]
  exact congrArg Except.ok (ofPacked_packed mask)

theorem Defined.readable (defined : modifiers.Defined) : modifiers.Readable := by
  induction defined with
  | empty =>
    constructor <;> simp [get?_empty]
  | @define modifiers after name real merge log slot before identifier unreserved success ih =>
    have answered : Answered modifiers (.define name real merge)
        (modifiers.define name real merge log).1 := define_answered rfl log
    rw [success] at answered
    cases answered with
    | @known _ _ known _ _ taken =>
      -- The modifier has another binding, and its name is the old one.
      refine ih.named_as fun place found present => ?_
      rw [get?_set _ _ (lt_of_get? taken)] at present
      split at present
      case isTrue here =>
        cases present
        exact ⟨known, here ▸ taken, rfl⟩
      case isFalse => exact ⟨found, present, rfl⟩
    | added _ unknown within => exact ih.add within identifier unreserved unknown

/-- The text of a mask is read as an expression and denotes the mask again, but that a slot without
a name is read as the mask of its number: a mask is read back as it was exactly if all its virtual
modifiers have names. -/
theorem maskText_reads_back_iff (defined : modifiers.Defined) (mask : ModMask) :
    ∃ expr, Spells (modifiers.maskText mask).toList expr ∧
      modifiers.maskOf expr = .ok (modifiers.readMask mask) ∧
      (modifiers.readMask mask = mask ↔
        ∀ slot ∈ slotsOf mask.virtual, (modifiers.get? slot).isSome) := by
  obtain ⟨expr, spells, value⟩ := defined.readable.spellsMask mask
  refine ⟨expr, .sum spells, ?_, readMask_eq_iff⟩
  rw [maskOf, value]
  rfl

/-- A real modifier and a virtual one, by name. -/
theorem maskText_reads_back_iff_numLock :
    let modifiers := VirtualModifiers.empty.set 0 ⟨"NumLock", bit8 4⟩
    modifiers.maskText ⟨bit8 0, bit16 0⟩ = "Shift+NumLock" ∧
      ∃ expr, Spells "Shift+NumLock".toList expr ∧
        modifiers.maskOf expr = .ok ⟨bit8 0, bit16 0⟩ := by
  have written : (VirtualModifiers.empty.set 0 ⟨"NumLock", bit8 4⟩).maskText ⟨bit8 0, bit16 0⟩
      = "Shift+NumLock" := by decide
  have defined : (VirtualModifiers.empty.set 0 ⟨"NumLock", bit8 4⟩).Defined := by
    refine @Defined.define _ _ "NumLock" (some (bit8 4)) .override (.atLevel 0) 0 .empty (by decide)
      (by decide) ?_
    decide
  obtain ⟨expr, spells, value, same⟩ := maskText_reads_back_iff defined ⟨bit8 0, bit16 0⟩
  rw [written] at spells
  rw [same.mpr (by decide)] at value
  exact ⟨written, expr, spells, value⟩

/-- A slot without a name is written as its number, which is read as a mask of real modifiers. -/
theorem maskText_of_free_slot :
    VirtualModifiers.empty.maskText ⟨0, bit16 5⟩ = "5" ∧
      ∃ expr, Spells "5".toList expr ∧
        VirtualModifiers.empty.maskOf expr = .ok ⟨bit8 0 ||| bit8 2, 0⟩ := by
  refine ⟨by decide, .integer 5, .operand ?_, by decide⟩
  exact SpellsOperand.decimal (by decide) (Token.decimal 5)

end VirtualModifiers

end Xkb
