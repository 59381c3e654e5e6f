import Xkb.Proofs.AliasChains
import Xkb.Proofs.Compiler
import Xkb.Proofs.Section.KeysSettled
import Xkb.Proofs.Tables

/-! The aliases of a keymap stand for keys, never for other aliases. -/

namespace Xkb

namespace KeycodeTable

/-- The aliases are no names of keys, and they stand for keys. -/
def Resolved (table : KeycodeTable) : Prop :=
  ∀ known ∈ table.aliases, (table.findNamed known.name 0).isSome = false ∧
    (table.findNamed known.real 0).isSome = true

theorem Resolved.empty : KeycodeTable.empty.Resolved :=
  fun _ member => nomatch member

variable {table : KeycodeTable}

/-- A name that stands for another one is no key, and the other one is. -/
theorem Resolved.of_realName (resolved : table.Resolved) {name real : KeyName}
    (isAlias : table.realName name = some real) :
    table.findNamed name 0 = none ∧ (table.findNamed real 0).isSome = true := by
  simp only [realName, Option.map_eq_some_iff] at isAlias
  obtain ⟨known, located, rfl⟩ := isAlias
  obtain ⟨noKey, isKey⟩ := resolved known (List.mem_of_find?_eq_some located)
  have sameName : known.name = name := by simpa using List.find?_some located
  rw [sameName] at noKey
  exact ⟨by simpa using noKey, isKey⟩

/-- An alias that stands for a key stands for no other alias. -/
theorem Resolved.flat (resolved : table.Resolved) : table.Flat := by
  intro known member
  cases isAlias : table.realName known.real with
  | none => rfl
  | some real =>
    -- What the alias stands for would be a key and no key.
    have isKey := (resolved known member).2
    rw [(resolved.of_realName isAlias).1] at isKey
    cases isKey

end KeycodeTable

namespace KeycodeContents

theorem apply_resolved (contents : KeycodeContents) (name : Option String) (table : KeycodeTable) :
    Gives (contents.apply name table) KeycodeTable.Resolved := by
  refine (contents.apply_aliases name table).mono fun made resolved known member => ?_
  rw [resolved, List.mem_filterMap] at member
  obtain ⟨definition, -, behind⟩ := member
  obtain ⟨named, noKey, onKey, -⟩ := keyBehind_eq_some.mp behind
  exact ⟨named ▸ noKey, onKey⟩

end KeycodeContents

namespace Assembly

variable {good : KeycodeTable → Prop}

theorem applyPart_keycodes {γ : Type} [SectionContents γ] {apply : Applying γ}
    (applies : ∀ contents name keymap, good keymap.keycodes →
      Gives (apply contents name keymap) fun made => good made.1.keycodes)
    (mode : MergeMode) (part : Section) :
    Leads (fun assembly => good assembly.keymap.keycodes) (applyPart mode part apply)
      fun _ assembly => good assembly.keymap.keycodes :=
  -- Reading alone does not touch the keycodes.
  applyPart_ends (fun _ begins => begins) fun assembly begins =>
    (applies _ _ (assembly.afterReading _).keymap begins).mono fun _ known _ => known

/-- Keycodes stay of a kind that all compiled keycodes are of, if the names of indicators have
nothing to do with it. -/
theorem compilePart_keepsKeycodes
    (compiled : ∀ (contents : KeycodeContents) name table, Gives (contents.apply name table) good)
    (indicated : ∀ (table : KeycodeTable) indicatorNames, good table →
      good { table with indicatorNames })
    (mode : MergeMode) (part : Section) :
    Leads (fun assembly => good assembly.keymap.keycodes) (compilePart mode part)
      fun _ assembly => good assembly.keymap.keycodes := by
  simp only [compilePart]
  -- Keycodes take the place of the table, and the other kinds write tables of their own.
  split
  · refine applyPart_keycodes (fun contents name keymap _ => ?_) mode part
    refine .bind (compiled contents name keymap.keycodes) ?_
    exact fun made known => .pure known
  · refine applyPart_keycodes (fun contents name keymap begins => ?_) mode part
    exact .pure begins
  · refine applyPart_keycodes (fun contents name keymap begins => ?_) mode part
    refine .mono (compatApply_writes contents name keymap) fun made written => ?_
    have same := congrArg Keymap.keycodes written
    rw [same]
    exact indicated _ _ begins
  · refine applyPart_keycodes (fun contents name keymap begins => ?_) mode part
    refine .mono (addSymbols_writes contents name keymap) fun made written => ?_
    have same := congrArg Keymap.keycodes written
    rw [same]
    exact begins
  · exact .pure fun _ begins => begins

theorem compilePart_flat (mode : MergeMode) (part : Section) :
    Leads (fun assembly => assembly.keymap.keycodes.Flat) (compilePart mode part)
      fun _ assembly => assembly.keymap.keycodes.Flat :=
  compilePart_keepsKeycodes (fun contents name table =>
    (contents.apply_resolved name table).mono fun _ resolved => resolved.flat)
    (fun _ _ flat => flat) mode part

theorem start_flat (level : Nat) (library : Library) (mode : MergeMode) (part : Section) :
    (compilePart mode part (start level library)).2.keymap.keycodes.Flat :=
  compilePart_flat mode part (start level library) KeycodeTable.Resolved.empty.flat

/-- The keymaps that sections are compiled to one after another, with indicator maps bound in
between. -/
inductive Built (level : Nat) (library : Library) : Assembly → Prop where
  | start : Built level library (start level library)
  | compile {assembly : Assembly} (earlier : Built level library assembly) (mode : MergeMode)
      (part : Section) : Built level library (compilePart mode part assembly).2
  | bind {assembly : Assembly} (earlier : Built level library assembly)
      (unbound : List IndicatorDraft) : Built level library (bindLeftover unbound assembly).2

variable {assembly : Assembly}

theorem bindLeftover_resolved (unbound : List IndicatorDraft)
    (resolved : assembly.keymap.keycodes.Resolved) :
    (bindLeftover unbound assembly).2.keymap.keycodes.Resolved := by
  have same := IndicatorDraft.bindAllFree_sameKeys unbound assembly.keymap assembly.diagnostics
  have found (name : KeyName) : (bindLeftover unbound assembly).2.keymap.keycodes.findNamed name 0 =
      assembly.keymap.keycodes.findNamed name 0 := by
    simp only [KeycodeTable.findNamed, KeycodeTable.codes]
    rw [show (bindLeftover unbound assembly).2.keymap.keycodes.low = _ from same.low,
      show (bindLeftover unbound assembly).2.keymap.keycodes.high = _ from same.high,
      show (bindLeftover unbound assembly).2.keymap.keycodes.names = _ from same.names]
  intro known member
  rw [found, found]
  exact resolved known (same.aliases ▸ member)

/-- In every keymap that sections are compiled to, the aliases stand for keys. -/
theorem Built.resolved {level : Nat} {library : Library} (built : Built level library assembly) :
    assembly.keymap.keycodes.Resolved := by
  induction built with
  | start => exact KeycodeTable.Resolved.empty
  | compile _ mode part ih =>
    exact compilePart_keepsKeycodes KeycodeContents.apply_resolved (fun _ _ known => known) mode
      part _ ih
  | bind _ unbound ih => exact bindLeftover_resolved unbound ih

end Assembly

end Xkb
