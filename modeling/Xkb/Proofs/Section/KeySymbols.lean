import Xkb.Proofs.Section.MergeWinners
import Xkb.Proofs.Section.ReachedKeys

/-! Of the behaviors of a key, an overlay is the first or the second, whatever the symbols sections
say. -/

namespace Xkb

namespace KeyDraft

/-- A key whose overlay, if it has one, is numbered 1 or 2. -/
abbrev Numbered (key : KeyDraft) : Prop :=
  key.behavior.Numbered

variable {key : KeyDraft}

theorem Assigned.numbered {made : KeyDraft} (assigned : key.Assigned made)
    (numbered : key.Numbered) : made.Numbered := by
  cases assigned with
  | behavior behavior overlayKey keeps => exact keeps numbered
  | plain => exact Behavior.default_numbered
  | _ => exact numbered

theorem prepare_behavior (key : KeyDraft) : key.prepare.behavior = key.behavior :=
  congrArg Prod.fst key.prepare_conduct

theorem merge_numbered {old new : KeyDraft} (oldNumbered : old.Numbered)
    (newNumbered : new.Numbered) : Gives (old.merge new) Numbered := by
  by_cases replaces : new.definition.merge = .replace
  · exact (merge_replaces replaces).mono fun made same => same ▸ newNumbered
  · refine (merge_joining replaces).mono ?_
    rintro _ ⟨grouped, joining, rfl⟩
    have same : grouped.behavior = old.behavior := by rw [joining.rest]
    simp only [mergeFields, Numbered]
    split
    · exact newNumbered
    · rw [same]
      exact oldNumbered

theorem Reached.numbered (reached : key.Reached) : key.Numbered :=
  reached.holds Behavior.default_numbered Assigned.numbered (fun _ _ _ numbered => numbered)
    (fun group map numbered => (moveGroup_same _ group map).mono fun made same => by
      have behavior : made.1.behavior = _ := congrArg Prod.fst same.2.2
      rwa [Numbered, behavior])
    fun _ _ => merge_numbered

end KeyDraft

namespace SymbolContents

/-- Contents of a symbols section whose keys have numbered overlays. -/
structure Numbered (contents : SymbolContents) : Prop where
  keys : ∀ key ∈ contents.keys, key.Numbered
  base : contents.base.Numbered

theorem Reached.numbered {contents : SymbolContents} (reached : contents.Reached) :
    contents.Numbered :=
  ⟨fun key member => (reached.keys key member).numbered, reached.base.numbered⟩

end SymbolContents

end Xkb
