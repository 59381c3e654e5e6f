import Mathlib.Data.List.Basic
import Xkb.Text.Blank
import Xkb.Text.Number

/-! Numbers that are written in digits of a base are read back. -/

namespace Xkb.Text

theorem digitValue_digitChar {digit : Nat} (small : digit < 16) :
    digitValue digit.digitChar = some digit := by
  revert digit
  decide

theorem isDigitOf_digitChar {base digit : Nat} (below : digit < base) (small : base ≤ 16) :
    isDigitOf base digit.digitChar = true := by
  simp [isDigitOf, digitValue_digitChar (Nat.lt_of_lt_of_le below small), below]

variable {base : Nat} {c : Char} {largest : Nat} {cs : List Char}

/-- The digits of every base lie in three ranges, and those below ten in the first of them. -/
theorem isDigitOf_ranges (digit : isDigitOf base c = true) :
    48 ≤ c.toNat ∧ c.toNat ≤ 57 ∨ 10 < base ∧
      (97 ≤ c.toNat ∧ c.toNat ≤ 102 ∨ 65 ≤ c.toNat ∧ c.toNat ≤ 70) := by
  have known : ∀ digit : Char, digit.toNat = digit.val.toNat := fun _ => rfl
  unfold isDigitOf digitValue at digit
  simp only [Char.le_def, UInt32.le_iff_toNat_le, ← known] at digit
  split at digit
  case isTrue range => exact .inl range
  case isFalse =>
    split at digit
    case isTrue range =>
      rw [Option.any_some, decide_eq_true_eq] at digit
      exact .inr ⟨by omega, .inl range⟩
    case isFalse =>
      split at digit
      case isTrue range =>
        rw [Option.any_some, decide_eq_true_eq] at digit
        exact .inr ⟨by omega, .inr range⟩
      case isFalse => simp at digit

theorem isBlank_of_digit (digit : isDigitOf base c = true) : isBlank c = false := by
  have ranges := isDigitOf_ranges digit
  simp only [isBlank, blankRanges, List.any_cons, List.any_nil, Bool.or_false, Bool.or_eq_false_iff,
    Bool.and_eq_false_iff, decide_eq_false_iff_not]
  omega

theorem isDigitOf_toDigits (proper : 1 < base) (small : base ≤ 16) (number : Nat) :
    ∀ c ∈ Nat.toDigits base number, isDigitOf base c = true := by
  -- The last digit is the remainder, and those in front are of the quotient.
  induction number using Nat.strongRecOn with
  | ind number ih =>
    intro c member
    by_cases below : number < base
    · rw [Nat.toDigits_of_lt_base below, List.mem_singleton] at member
      rw [member]
      exact isDigitOf_digitChar below small
    · rw [Nat.toDigits_of_base_le proper (by omega), List.mem_append, List.mem_singleton] at member
      rcases member with front | rfl
      · exact ih _ (Nat.div_lt_self (by omega) proper) c front
      · exact isDigitOf_digitChar (Nat.mod_lt _ (by omega)) small

theorem digitsValue_concat (cs : List Char) (c : Char) :
    digitsValue base (cs ++ [c]) = digitsValue base cs * base + (digitValue c).getD 0 := by
  simp [digitsValue]

theorem digitsValue_toDigits (proper : 1 < base) (small : base ≤ 16) (number : Nat) :
    digitsValue base (Nat.toDigits base number) = number := by
  induction number using Nat.strongRecOn with
  | ind number ih =>
    by_cases below : number < base
    · rw [Nat.toDigits_of_lt_base below]
      simp [digitsValue, digitValue_digitChar (Nat.lt_of_lt_of_le below small)]
    · have remainder : number % base < base := Nat.mod_lt _ (by omega)
      rw [Nat.toDigits_of_base_le proper (by omega), digitsValue_concat,
        ih _ (Nat.div_lt_self (by omega) proper),
        digitValue_digitChar (Nat.lt_of_lt_of_le remainder small)]
      exact Nat.div_add_mod' number base

theorem digitValue_toUpper (digit : isDigitOf base c = true) :
    digitValue c.toUpper = digitValue c := by
  have each : ∀ code < 103, digitValue (Char.ofNat code) = none ∨
      digitValue (Char.ofNat code).toUpper = digitValue (Char.ofNat code) := by decide
  have ranges := isDigitOf_ranges digit
  have known := each c.toNat (by omega)
  rw [Char.ofNat_toNat] at known
  refine known.resolve_left fun none => ?_
  simp [isDigitOf, none] at digit

section Padding

variable (width number : Nat)

theorem digitsValue_padZeros (cs : List Char) :
    digitsValue base (padZeros width cs) = digitsValue base cs := by
  have zeros : ∀ count : Nat, (List.replicate count '0').foldl
      (fun value c => value * base + (digitValue c).getD 0) 0 = 0 := by
    intro count
    induction count with
    | zero => rfl
    | succ count ih => simpa [List.replicate_succ, digitValue] using ih
  simp [digitsValue, padZeros, zeros]

theorem isDigitOf_padZeros : ∀ c ∈ padZeros width (hexDigits number), isDigitOf 16 c = true := by
  intro c member
  rcases List.mem_append.mp member with zero | digit
  · rw [(List.mem_replicate.mp zero).2]
    decide
  · exact isDigitOf_toDigits (by decide) (by decide) number c digit

theorem digitsValue_hexDigits : digitsValue 16 (padZeros width (hexDigits number)) = number := by
  rw [digitsValue_padZeros]
  exact digitsValue_toDigits (by decide) (by decide) number

theorem isDigitOf_toUpper :
    ∀ c ∈ (padZeros width (hexDigits number)).map Char.toUpper, isDigitOf 16 c = true := by
  refine List.forall_mem_map.mpr fun c member => ?_
  have digit := isDigitOf_padZeros width number c member
  rwa [isDigitOf, digitValue_toUpper digit]

theorem digitsValue_toUpper :
    digitsValue 16 ((padZeros width (hexDigits number)).map Char.toUpper) = number := by
  rw [digitsValue, List.foldl_map]
  refine (List.foldl_ext _ _ 0 fun value c member => ?_).trans (digitsValue_hexDigits width number)
  rw [digitValue_toUpper (isDigitOf_padZeros width number c member)]

theorem padZeros_ne_nil : padZeros width (hexDigits number) ≠ [] := by
  simp [padZeros, hexDigits]

end Padding

theorem readDigits_of_digits (some : cs ≠ []) (all : ∀ c ∈ cs, isDigitOf base c = true)
    (fits : digitsValue base cs ≤ largest) :
    readDigits base largest cs = .some (digitsValue base cs) := by
  have every : cs.all (isDigitOf base) = true := List.all_eq_true.mpr all
  simp [readDigits, some, every, fits]

theorem readNumber_of_digits (some : cs ≠ []) (all : ∀ c ∈ cs, isDigitOf base c = true)
    (fits : digitsValue base cs ≤ largest) :
    readNumber base largest cs = .some (digitsValue base cs) := by
  unfold readNumber
  split
  case h_1 rest =>
    have ranges := isDigitOf_ranges (all '+' List.mem_cons_self)
    exact absurd ranges (by simp)
  case h_2 => exact readDigits_of_digits some all fits

theorem readNumber_toDigits {number : Nat} (fits : number ≤ largest) :
    readNumber 10 largest (Nat.toDigits 10 number) = some number := by
  have value : digitsValue 10 (Nat.toDigits 10 number) = number :=
    digitsValue_toDigits (by decide) (by decide) number
  rw [readNumber_of_digits Nat.toDigits_ne_nil (isDigitOf_toDigits (by decide) (by decide) number)
    (by rwa [value]), value]

theorem trim_of_solid (solid : ∀ c ∈ cs, isBlank c = false) : trim cs = cs := by
  have kept : ∀ {cs : List Char}, (∀ c ∈ cs, isBlank c = false) → cs.dropWhile isBlank = cs := by
    intro cs solid
    cases cs with
    | nil => rfl
    | cons c rest => rw [List.dropWhile_cons_of_neg (by simp [solid c])]
  rw [trim, kept solid, trimEnd, kept (by simpa using solid), List.reverse_reverse]

end Xkb.Text
