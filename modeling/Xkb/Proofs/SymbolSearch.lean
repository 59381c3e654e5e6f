import Mathlib.Data.Prod.Lex
import Mathlib.Order.Bounds.Basic
import Mathlib.Order.MinMax
import Xkb.Keymap.Basic

/-! The key that a search for a symbol finds: sweeps over the range, one position after another,
come to an end, and they find the least place of the symbol. -/

namespace Xkb.Keymap

/-- The position and the code of each place in the range where a symbol stands. -/
def places (keymap : Keymap) (sym : Keysym) : Set (ℕ ×ₗ ℕ) :=
  { place | keymap.keycodes.inRange (ofLex place).2 = true ∧
      keymap.symbolAt (ofLex place).2 (ofLex place).1 = some sym }

variable {keymap : Keymap} {sym : Keysym} {code position : Nat}

theorem mem_places : toLex (position, code) ∈ keymap.places sym ↔
    keymap.keycodes.inRange code = true ∧ keymap.symbolAt code position = some sym :=
  Iff.rfl

/-- A position lies within the widest key exactly where some key of the range has so many
symbols. -/
theorem lt_widestCode_iff : position < keymap.widestCode ↔
    ∃ code ∈ keymap.keycodes.codes, position < keymap.symbolCount code := by
  -- The width met so far is generalized: a position is below the maximum of all of them.
  have below : ∀ (codes : List Nat) (widest : Nat),
      position < codes.foldl (fun widest code => max widest (keymap.symbolCount code)) widest ↔
        position < widest ∨ ∃ code ∈ codes, position < keymap.symbolCount code := by
    intro codes
    induction codes with
    | nil => simp
    | cons code codes ih =>
      intro widest
      simp [ih, or_assoc]
  simpa [widestCode] using below keymap.keycodes.codes 0

/-- Where a symbol stands, the key reaches that far. -/
theorem lt_symbolCount (stands : keymap.symbolAt code position = some sym) :
    position < keymap.symbolCount code := by
  obtain ⟨key, found, within⟩ := Option.bind_eq_some_iff.mp stands
  simpa [symbolCount, found] using (List.getElem?_eq_some_iff.mp within).1

/-- A sweep finds the lowest code of the range that has the symbol at its position. -/
theorem codeWithSymbolAt_finds (found : keymap.codeWithSymbolAt sym position = some code) :
    toLex (position, code) ∈ keymap.places sym ∧
      ∀ other, toLex (position, other) ∈ keymap.places sym → code ≤ other := by
  obtain ⟨stands, within, before⟩ := List.find?_range'_eq_some.mp found
  refine ⟨⟨KeycodeTable.mem_codes.mp within, eq_of_beq stands⟩, fun other ⟨inside, also⟩ => ?_⟩
  by_contra lower
  have low := (List.mem_range'_1.mp (KeycodeTable.mem_codes.mpr inside)).1
  have missed : (!keymap.symbolAt other position == some sym) = true :=
    before other low (by omega)
  exact absurd also (by simpa using missed)

/-- A sweep that finds nothing leaves no place at its position. -/
theorem not_mem_places (missed : keymap.codeWithSymbolAt sym position = none) :
    toLex (position, code) ∉ keymap.places sym := fun ⟨inside, stands⟩ =>
  List.find?_eq_none.mp missed code (KeycodeTable.mem_codes.mpr inside) (beq_iff_eq.mpr stands)

/-- Sweeps from a position on, until no key of the range reaches as far as the sweep. -/
def searchFrom (keymap : Keymap) (sym : Keysym) (position : Nat) : Option Nat :=
  keymap.codeWithSymbolAt sym position <|>
    if reached : ∃ code ∈ keymap.keycodes.codes, position < keymap.symbolCount code then
      searchFrom keymap sym (position + 1)
    else none
termination_by keymap.widestCode - position
decreasing_by
  have := lt_widestCode_iff.mpr reached
  omega

/-- The sweeps are those over the positions of the widest key. -/
theorem searchFrom_eq_findSome? (position : Nat) :
    keymap.searchFrom sym position =
      (List.range' position (keymap.widestCode - position)).findSome?
        (keymap.codeWithSymbolAt sym) := by
  fun_induction searchFrom keymap sym position with
  | case1 position ih =>
    by_cases reached : ∃ code ∈ keymap.keycodes.codes, position < keymap.symbolCount code
    · -- One more position is left than after this sweep.
      have wide := lt_widestCode_iff.mpr reached
      rw [dif_pos reached, ih reached,
        show keymap.widestCode - position = keymap.widestCode - (position + 1) + 1 by omega,
        List.range'_succ, List.findSome?_cons]
      cases keymap.codeWithSymbolAt sym position <;> rfl
    · -- No key reaches so far, so the symbol stands on none.
      have wide := mt lt_widestCode_iff.mp reached
      have missed : keymap.codeWithSymbolAt sym position = none :=
        Option.eq_none_iff_forall_ne_some.mpr fun code found =>
          have place := (codeWithSymbolAt_finds found).1
          reached ⟨code, KeycodeTable.mem_codes.mpr place.1, lt_symbolCount place.2⟩
      rw [dif_neg reached, missed, Nat.sub_eq_zero_of_le (by omega)]
      rfl

/-- Where no place lies before the first sweep, the sweeps find the least place, or there is
none. -/
theorem searchFrom_finds (keymap : Keymap) (sym : Keysym) (start : Nat)
    (before : ∀ position code, toLex (position, code) ∈ keymap.places sym → start ≤ position) :
    (∀ code, keymap.searchFrom sym start = some code →
      ∃ position, IsLeast (keymap.places sym) (toLex (position, code))) ∧
    (keymap.searchFrom sym start = none → keymap.places sym = ∅) := by
  fun_induction searchFrom keymap sym start with
  | case1 start ih =>
    cases found : keymap.codeWithSymbolAt sym start with
    | some code =>
      -- All places lie at this position or behind it, and at this one the sweep finds the first.
      have ⟨stands, lowest⟩ := codeWithSymbolAt_finds found
      have least : IsLeast (keymap.places sym) (toLex (start, code)) := by
        refine ⟨stands, fun place member => Prod.Lex.toLex_le_toLex.mpr ?_⟩
        rcases (before _ _ member).lt_or_eq with later | same
        · exact .inl later
        · exact .inr ⟨same, lowest _ (same ▸ member)⟩
      simp only [Option.orElse_eq_orElse, Option.orElse_some]
      exact ⟨fun other same => ⟨start, Option.some.inj same ▸ least⟩, nofun⟩
    | none =>
      -- This position has no place, so all of them lie behind it.
      have behind : ∀ position code, toLex (position, code) ∈ keymap.places sym →
          start + 1 ≤ position := fun position code member =>
        (before position code member).lt_of_ne fun same => not_mem_places found (same ▸ member)
      split_ifs with reached
      · simpa using ih reached behind
      · refine ⟨by simp, fun _ => Set.eq_empty_of_forall_notMem fun place member => reached ?_⟩
        have wide := lt_symbolCount member.2
        exact ⟨_, KeycodeTable.mem_codes.mpr member.1, (before _ _ member).trans_lt wide⟩

/-- Searching ends, with the code of the least place of the symbol, a lower position first and then
a lower code; it finds nothing exactly where the symbol stands on no key of the range. -/
theorem findSymbol_least (keymap : Keymap) (sym : Keysym) :
    keymap.findSymbol sym = keymap.searchFrom sym 0 ∧
      (∀ code, keymap.findSymbol sym = some code ↔
        ∃ position, IsLeast (keymap.places sym) (toLex (position, code))) ∧
      (keymap.findSymbol sym = none ↔ keymap.places sym = ∅) := by
  have swept : keymap.findSymbol sym = keymap.searchFrom sym 0 := by
    rw [searchFrom_eq_findSome?, ← List.range_eq_range']
    rfl
  have ⟨finds, misses⟩ := searchFrom_finds keymap sym 0 (by simp)
  rw [← swept] at finds misses
  refine ⟨swept, fun code => ⟨finds code, fun ⟨position, least⟩ => ?_⟩, misses, fun none => ?_⟩
  · cases found : keymap.findSymbol sym with
    | none => exact absurd least.1 (by simp [misses found])
    | some other =>
      obtain ⟨_, least'⟩ := finds other found
      exact congrArg some (congrArg (fun place => (ofLex place).2) (least'.unique least))
  · refine Option.eq_none_iff_forall_ne_some.mpr fun code found => ?_
    obtain ⟨position, least⟩ := finds code found
    exact absurd least.1 (by simp [none])

end Xkb.Keymap
