import Xkb.Proofs.Accounts
import Xkb.Section.Keycodes

/-! Keycodes sections account for every statement that is wrong. -/

namespace Xkb

namespace KeycodeContents

variable {level : Nat} (contents : KeycodeContents)

theorem noteOutside_goes (code : Int) (name : KeyName) :
    Goes level (contents.noteOutside code name) := by
  unfold noteOutside
  refine .atLevel (.ite (fun _ => ?_) fun _ => .pure id)
  refine Accounts.after (Answers.firstTime _) fun first => ?_
  exact Accounts.ite (fun _ => Answers.info _) fun _ => Accounts.pure id

theorem warnNames_goes (wanted : Bool) (code : Nat) (used ignored : KeyName) :
    Goes level (warnNames wanted code used ignored) :=
  Accounts.ite (fun _ => Answers.warn _ _ _) fun _ => Accounts.pure id

theorem warnCodes_goes (wanted : Bool) (name : KeyName) (used ignored : Nat)
    (advice : List String) : Goes level (warnCodes wanted name used ignored advice) :=
  Accounts.ite (fun _ => Answers.warn _ _ _) fun _ => Accounts.pure id

theorem placeKey_goes (code : Nat) (name : KeyName) (mode : MergeMode) (origin : Origin)
    (report : Bool) : Goes level (contents.placeKey code name mode origin report) := by
  unfold placeKey
  split
  · exact .pure id
  · split
    · exact .after (warnCodes_goes _ _ _ _ _) fun _ => .pure id
    · exact .pure id
    · refine .atLevel (.after (warnCodes_goes _ _ _ _ _) fun _ => ?_)
      exact .pure id

theorem addKey_goes (code : Nat) (name : KeyName) (mode : MergeMode) (origin : Origin)
    (mayReport : Bool) : Goes level (contents.addKey code name mode origin mayReport) := by
  unfold addKey
  refine Accounts.ite (fun _ => ?_) fun _ => Answers.atLevel ?_
  · exact .after (noteOutside_goes _ _ _) fun _ => .pure id
  refine Accounts.ite (fun _ => placeKey_goes _ _ _ _ _ _) fun _ => ?_
  refine .ite (fun _ => ?_) fun _ => ?_
  · exact Accounts.ite (fun _ => Accounts.pure id) fun _ => Answers.warnIf (Accounts.pure id)
  · refine .ite (fun _ => ?_) fun _ => ?_
    · exact .after (warnNames_goes _ _ _ _) fun _ => .pure id
    · exact .after (warnNames_goes _ _ _ _) fun _ => placeKey_goes _ _ _ _ _ _

variable (new : IndicatorName) (header : Header) (mode : MergeMode)

theorem addIndicatorAt_goes : Goes level (contents.addIndicatorAt new) := by
  unfold addIndicatorAt
  split
  · exact .pure id
  · refine .atLevel (.warnIf ?_)
    exact .ite (fun _ => .pure id) fun _ => .pure id

/-- Adding the name of an indicator. -/
theorem addIndicator_goes : Goes level (contents.addIndicator new) := by
  unfold addIndicator
  split
  · exact addIndicatorAt_goes _ _
  · refine .atLevel (.ite (fun _ => addIndicatorAt_goes _ _) fun _ => ?_)
    refine .ite (fun _ => ?_) fun _ => ?_
    · refine .ite (fun _ => ?_) fun _ => ?_
      · exact Answers.afterWarn (Accounts.pure id)
      · exact Answers.afterWarn (Accounts.pure id)
    · refine .ite (fun _ => ?_) fun _ => ?_
      · exact Answers.afterWarn (addIndicatorAt_goes _ _)
      · exact Answers.afterWarn (addIndicatorAt_goes _ _)

theorem addAlias_goes (new : AliasDefinition) : Goes level (contents.addAlias new) := by
  unfold addAlias
  split
  · exact .pure id
  · refine .atLevel (.ite (fun _ => ?_) fun _ => .pure id)
    refine .ite (fun _ => ?_) fun _ => ?_
    · exact Answers.afterWarn (Accounts.pure id)
    · exact Answers.afterWarn (Accounts.pure id)

theorem handleKey_goes (merge : MergeMode) (name : KeyName) (value : Int64) :
    Goes level (contents.handleKey header mode merge name value) := by
  unfold handleKey
  refine .ite (fun _ => ?_) fun _ => addKey_goes _ _ _ _ _ _
  exact .after (noteOutside_goes _ _ _) fun _ => .pure id

theorem setBound_answers (isMinimum : Bool) (field : String) (value : Int64) :
    Answers level (contents.setBound isMinimum field value) (·.2 = false) := by
  have minimum (value : Nat) : Answers level (contents.setMinimum value) (·.2 = false) := by
    unfold setMinimum
    split
    · exact .refuse
    · exact .refuse
    · exact .pure (by simp)
  have maximum (value : Nat) : Answers level (contents.setMaximum value) (·.2 = false) := by
    unfold setMaximum
    split
    · exact .refuse
    · exact .refuse
    · exact .pure (by simp)
  unfold setBound
  refine Accounts.ite (fun _ => Answers.refuse) fun _ => ?_
  refine Accounts.ite (fun _ => Answers.afterWarn (Accounts.pure id)) fun _ => ?_
  exact .ite (fun _ => minimum _) fun _ => maximum _

theorem handleField_answers (target : Target) (value : Option Expr) :
    Answers level (contents.handleField target value) (·.2 = false) := by
  unfold handleField
  split
  · exact .refuse
  · refine Accounts.ite (fun _ => ?_) fun _ => Answers.refuse
    refine Accounts.ite (fun _ => Answers.refuse) fun _ => ?_
    split
    · exact Answers.refuse
    · exact Answers.refuse
    · exact setBound_answers _ _ _ _

theorem handleAssignment_answers (assigned : Assignment) :
    Answers level (contents.handleAssignment assigned) (·.2 = false) := by
  unfold handleAssignment
  split
  · exact .refuse
  · exact .refuse
  · exact handleField_answers _ _ _

theorem handleIndicator_answers (index : Int64) (name : Expr) (isVirtual : Bool) :
    Answers level (contents.handleIndicator header mode index name isVirtual) (·.2 = false) := by
  unfold handleIndicator
  refine Accounts.ite (fun _ => Answers.refuse) fun _ => ?_
  split
  · exact Answers.refuse
  · exact .after (addIndicator_goes _ _) fun _ => .pure (by simp)

/-- A statement of the section. -/
theorem handle_answers (statement : Statement) (contents : KeycodeContents) :
    Answers level (contents.handle header mode statement) (·.2 = false) := by
  unfold handle
  split
  · exact .after (handleKey_goes _ _ _ _ _ _) fun _ => .pure (by simp)
  · exact .after (addAlias_goes _ _) fun _ => .pure (by simp)
  · exact handleAssignment_answers _ _
  · exact handleIndicator_answers _ _ _ _ _ _
  · exact .refuse

/-- Adding another section. -/
theorem absorb_goes (header : Header) (new old : KeycodeContents) :
    Goes level (absorb mode header new old) := by
  have keys : Goes level (absorbKeys mode header.origin new old) := by
    unfold absorbKeys
    split
    · exact .pure id
    · refine .foldQuiet fun contents code _ => ?_
      exact .ite (fun _ => .pure id) fun _ => addKey_goes _ _ _ _ _ _
  refine .after keys fun contents => ?_
  refine .after (.foldQuiet fun contents indicator _ => addIndicator_goes _ _)
    fun contents => ?_
  refine .after (.foldQuiet fun contents known _ => addAlias_goes _ _)
    fun contents => ?_
  exact .pure id

theorem resolveAlias_goes (aliases : List AliasDefinition) (isKey : KeyName → Bool)
    (known : AliasDefinition) : Goes level (resolveAlias aliases isKey known) := by
  unfold resolveAlias
  refine Answers.atLevel (Accounts.ite (fun _ => Answers.warnIf (Accounts.pure id)) fun _ => ?_)
  dsimp only
  split
  · exact Answers.afterWarn (Accounts.pure id)
  · refine .ite (fun _ => .pure id) fun _ => ?_
    exact Answers.warnIf (Accounts.pure id)

/-- Applying the section. -/
theorem apply_goes (name : Option String) (table : KeycodeTable) :
    Goes level (contents.apply name table) := by
  have aliases (isKey : KeyName → Bool) : Goes level (resolveAliases contents.aliases isKey) :=
    .after (.mapM fun known _ => resolveAlias_goes _ _ known) fun _ =>
      .pure id
  exact .after (aliases _) fun _ => .pure id

end KeycodeContents

end Xkb
