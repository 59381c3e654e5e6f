import Xkb.Modifier

/-! Bits that masks have in common. -/

namespace Xkb

theorem or_and_distrib8 (left right bits : UInt8) :
    (left ||| right) &&& bits = (left &&& bits) ||| (right &&& bits) := by
  apply UInt8.toBitVec_inj.mp
  simp only [UInt8.toBitVec_and, UInt8.toBitVec_or]
  grind

theorem and_or_distrib8 (bits left right : UInt8) :
    bits &&& (left ||| right) = (bits &&& left) ||| (bits &&& right) := by
  rw [UInt8.and_comm, or_and_distrib8, UInt8.and_comm left, UInt8.and_comm right]

/-- Taking away bits that a byte does not have leaves it as it is. -/
theorem and_not_of_apart8 {mask bits : UInt8} (apart : mask &&& bits = 0) :
    mask &&& ~~~bits = mask := by
  have all : mask &&& (bits ||| ~~~bits) = mask := by simp
  rwa [and_or_distrib8, apart, UInt8.zero_or] at all

theorem meets8_or_iff {left right bits : UInt8} :
    meets8 (left ||| right) bits = true ↔ meets8 left bits = true ∨ meets8 right bits = true := by
  simp only [meets8, bne_iff_ne, ne_eq, or_and_distrib8, UInt8.or_eq_zero_iff,
    Decidable.not_and_iff_not_or_not]

theorem meets8_or (left right bits : UInt8) :
    meets8 (left ||| right) bits = (meets8 left bits || meets8 right bits) := by
  rw [Bool.eq_iff_iff, meets8_or_iff, Bool.or_eq_true]

theorem meets8_and (mask part bits : UInt8) :
    meets8 (mask &&& part) bits = meets8 mask (part &&& bits) := by
  rw [meets8, meets8, UInt8.and_assoc]

/-- Bits that are switched are as they were switched. -/
theorem meets8_switch8 (mask : UInt8) {bits : UInt8} (some : bits ≠ 0) (on : Bool) :
    meets8 (switch8 mask bits on) bits = on := by
  cases on with
  | true =>
    rw [switch8, if_pos rfl, meets8_or_iff]
    exact .inr (by simpa [meets8] using some)
  | false =>
    simp [switch8, meets8, UInt8.and_assoc]

/-- Other bits stay as they are. -/
theorem meets8_switch8_of_apart (mask : UInt8) {bits other : UInt8} (apart : bits &&& other = 0)
    (on : Bool) : meets8 (switch8 mask bits on) other = meets8 mask other := by
  cases on with
  | true =>
    rw [Bool.eq_iff_iff, switch8, if_pos rfl, meets8_or_iff]
    exact or_iff_left (by simp [meets8, apart])
  | false =>
    have kept : mask &&& ~~~bits &&& other = mask &&& other := by
      rw [UInt8.and_assoc, UInt8.and_comm _ other, and_not_of_apart8 (by rwa [UInt8.and_comm])]
    simp [switch8, meets8, kept]

variable {index : Nat}

theorem toBitVec_bit8 (within : index < 8) :
    (bit8 index).toBitVec = BitVec.twoPow 8 index := by
  have small : index % 256 % 8 = index := by omega
  apply BitVec.eq_of_toNat_eq
  simp [bit8, Nat.shiftLeft_eq, small]

theorem toBitVec_bit16 (within : index < 16) :
    (bit16 index).toBitVec = BitVec.twoPow 16 index := by
  have small : index % 65536 % 16 = index := by omega
  apply BitVec.eq_of_toNat_eq
  simp [bit16, Nat.shiftLeft_eq, small]

theorem toBitVec_bit32 (within : index < 32) :
    (bit32 index).toBitVec = BitVec.twoPow 32 index := by
  have small : index % 4294967296 % 32 = index := by omega
  apply BitVec.eq_of_toNat_eq
  simp [bit32, Nat.shiftLeft_eq, small]

theorem getLsbD_bit32 (within : index < 32) (other : Nat) :
    (bit32 index).toBitVec.getLsbD other = decide (index = other) := by
  rw [toBitVec_bit32 within, BitVec.getLsbD_twoPow, decide_eq_true within, Bool.true_and]

/-- A bit of a word is switched, and the others stay. -/
theorem getLsbD_switch32 (mask : UInt32) (within : index < 32) (on : Bool) {other : Nat}
    (inside : other < 32) :
    (switch32 mask (bit32 index) on).toBitVec.getLsbD other
      = if other = index then on else mask.toBitVec.getLsbD other := by
  cases on with
  | true =>
    simp only [switch32, if_true, UInt32.toBitVec_or, BitVec.getLsbD_or, getLsbD_bit32 within]
    by_cases same : other = index
    · rw [if_pos same, decide_eq_true same.symm, Bool.or_true]
    · rw [if_neg same, decide_eq_false (Ne.symm same), Bool.or_false]
  | false =>
    simp only [switch32, Bool.false_eq_true, if_false, UInt32.toBitVec_and, UInt32.toBitVec_not,
      BitVec.getLsbD_and, BitVec.getLsbD_not, getLsbD_bit32 within, decide_eq_true inside,
      Bool.true_and]
    by_cases same : other = index
    · rw [if_pos same, decide_eq_true same.symm, Bool.not_true, Bool.and_false]
    · rw [if_neg same, decide_eq_false (Ne.symm same), Bool.not_false, Bool.and_true]

theorem and_or_distrib32 (left right bits : UInt32) :
    bits &&& (left ||| right) = (bits &&& left) ||| (bits &&& right) := by
  apply UInt32.toBitVec_inj.mp
  simp only [UInt32.toBitVec_and, UInt32.toBitVec_or]
  grind

/-- Bits that are there already add nothing. -/
theorem or_of_and_eq32 {mask bits : UInt32} (inside : mask &&& bits = bits) :
    mask ||| bits = mask := by
  rw [← inside]
  apply UInt32.toBitVec_inj.mp
  simp only [UInt32.toBitVec_or, UInt32.toBitVec_and]
  grind

theorem and_twoPow_ne_zero {width : Nat} (mask : BitVec width) (within : index < width) :
    mask &&& BitVec.twoPow width index ≠ BitVec.ofNat width 0 ↔ mask.getLsbD index = true := by
  have some : BitVec.twoPow width index ≠ BitVec.ofNat width 0 := by
    intro none
    have selected := congrArg (·.getLsbD index) none
    simp [within] at selected
  rw [BitVec.and_twoPow]
  cases mask.getLsbD index <;> simp [some]

theorem forall_byte {holds : UInt8 → Prop} (each : ∀ number < 256, holds (UInt8.ofNat number))
    (byte : UInt8) : holds byte := by
  have here := each byte.toNat byte.toNat_lt
  rwa [UInt8.ofNat_toNat] at here

theorem meets8_eq_getLsbD {mask : UInt8} (within : index < 8) :
    meets8 mask (bit8 index) = mask.toBitVec.getLsbD index := by
  rw [Bool.eq_iff_iff, meets8, bne_iff_ne, ← and_twoPow_ne_zero _ within, ← toBitVec_bit8 within,
    ne_eq, ← UInt8.toBitVec_inj]
  rfl

/-- What a byte has in common with one bit is that bit or nothing. -/
theorem and_bit8 (mask : UInt8) (within : index < 8) :
    mask &&& bit8 index = if meets8 mask (bit8 index) then bit8 index else 0 := by
  apply UInt8.toBitVec_inj.mp
  rw [meets8_eq_getLsbD within, UInt8.toBitVec_and, toBitVec_bit8 within, BitVec.and_twoPow]
  split
  · rw [toBitVec_bit8 within]
  · rfl

/-- A bit that is not set yet is switched as another byte has it. -/
theorem switch8_bit8 {start : UInt8} (flags : UInt8) (within : index < 8)
    (clear : start &&& bit8 index = 0) :
    switch8 start (bit8 index) (meets8 flags (bit8 index)) = start ||| (flags &&& bit8 index) := by
  rw [and_bit8 flags within]
  cases meets8 flags (bit8 index) with
  | true => rfl
  | false =>
    simp [switch8, and_not_of_apart8 clear]

theorem meets16_eq_getLsbD {mask : UInt16} (within : index < 16) :
    meets16 mask (bit16 index) = mask.toBitVec.getLsbD index := by
  rw [Bool.eq_iff_iff, meets16, bne_iff_ne, ← and_twoPow_ne_zero _ within, ← toBitVec_bit16 within,
    ne_eq, ← UInt16.toBitVec_inj]
  rfl

theorem meets32_eq_getLsbD {mask : UInt32} (within : index < 32) :
    meets32 mask (bit32 index) = mask.toBitVec.getLsbD index := by
  rw [Bool.eq_iff_iff, meets32, bne_iff_ne, ← and_twoPow_ne_zero _ within, ← toBitVec_bit32 within,
    ne_eq, ← UInt32.toBitVec_inj]
  rfl

/-- What a word has in common with one bit is that bit or nothing. -/
theorem and_bit32 (mask : UInt32) (within : index < 32) :
    mask &&& bit32 index = if meets32 mask (bit32 index) then bit32 index else 0 := by
  apply UInt32.toBitVec_inj.mp
  rw [meets32_eq_getLsbD within, UInt32.toBitVec_and, toBitVec_bit32 within, BitVec.and_twoPow]
  split
  · rw [toBitVec_bit32 within]
  · rfl

theorem ModMask.eq_of_toBitVec {left right : ModMask}
    (real : left.real.toBitVec = right.real.toBitVec)
    (virtual : left.virtual.toBitVec = right.virtual.toBitVec) : left = right := by
  cases left
  cases right
  simp_all [UInt8.toBitVec_inj, UInt16.toBitVec_inj]

theorem ModMask.isEmpty_iff {mask : ModMask} : mask.isEmpty = true ↔ mask = .empty := by
  cases mask
  simp [isEmpty, empty]

end Xkb
