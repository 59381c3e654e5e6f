/-! How a definition is combined with an earlier one of the same thing. -/

namespace Xkb

/-- The ways to combine a definition with an earlier one of the same thing. -/
inductive MergeMode where
  /-- Nothing is said, so the surrounding statement decides. -/
  | unspecified
  /-- What is there already stays. -/
  | augment
  /-- The new values take the place of the old ones. -/
  | override
  /-- The new thing takes the place of the old one as a whole. -/
  | replace
  /-- Both stay: a further key of the same name. -/
  | alternate
deriving DecidableEq, Inhabited

namespace MergeMode

/-- The mode itself, or the surrounding one where nothing is said. -/
def or (mode outer : MergeMode) : MergeMode :=
  match mode with
  | unspecified => outer
  | _ => mode

/-- Whether a definition of this mode takes the place of a whole earlier one. -/
def replacesEntity (mode : MergeMode) : Bool :=
  mode == replace || mode == override

/-- Whether a value of this mode wins over an earlier one. -/
def clobbers (mode : MergeMode) : Bool :=
  mode != augment

end MergeMode

end Xkb
