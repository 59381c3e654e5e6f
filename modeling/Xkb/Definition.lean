import Xkb.MergeMode

/-! The merge policy: which of two definitions of the same thing gives a field its value. -/

namespace Xkb

/-- Where a definition was read. -/
inductive Origin where
  /-- Nowhere: it was there from the start. -/
  | initial
  /-- In the section that is compiled. -/
  | main
  /-- In a section of an included file, by its position there. -/
  | included (file : String) (position : Nat)
deriving DecidableEq, Inhabited

/-- What is known of a definition besides its values: the fields it sets, its origin and mode. -/
structure Definition where
  /-- One bit for each field that is set. -/
  fields : UInt32
  origin : Origin
  merge : MergeMode
deriving DecidableEq, Inhabited

/-- Whether a clash of two definitions is to be reported: within one section or when asked for. -/
def reportsClash (old new : Origin) (level : Nat) : Bool :=
  (old == new && level > 0) || level > 9

namespace Definition

/-- A definition that sets nothing yet. -/
def start (origin : Origin) (merge : MergeMode) : Definition :=
  ⟨0, origin, merge⟩

/-- Whether a definition sets a field. -/
def defines (definition : Definition) (field : UInt32) : Bool :=
  definition.fields &&& field != 0

/-- The definition with one more field set. -/
def define (definition : Definition) (field : UInt32) : Definition :=
  { definition with fields := definition.fields ||| field }

/-- Whether the new definition gives a field its value: it sets the field, and either it clobbers
or the old one does not set it. -/
def takes (old new : Definition) (field : UInt32) : Bool :=
  new.defines field && (new.merge.clobbers || !old.defines field)

/-- Whether both definitions set a field and that is to be reported. -/
def clashes (old new : Definition) (level : Nat) (field : UInt32) : Bool :=
  old.defines field && new.defines field && reportsClash old.origin new.origin level

/-- The fields out of a list that both definitions set, where that is to be reported. -/
def clashingFields (old new : Definition) (level : Nat) (fields : List UInt32) : UInt32 :=
  (fields.filter (old.clashes new level)).foldl (· ||| ·) 0

/-- The old definition with the fields out of a list whose values it took over. -/
def adopt (old new : Definition) (fields : List UInt32) : Definition :=
  let taken := fields.filter (old.takes new)
  { old with fields := taken.foldl (· ||| ·) old.fields }

/-- The definition in the mode of an include, if that gives one. -/
def inMode (mode : MergeMode) (definition : Definition) : Definition :=
  if mode == .unspecified then definition else { definition with merge := mode }

/-- The word that says which definition of a field counts. -/
def winnerWord (new : Definition) : String :=
  if new.merge == .augment then "first" else "last"

end Definition

/-- The list with the first entry that satisfies a test changed. -/
def changeFirst {α : Type} (test : α → Bool) (change : α → α) : List α → List α
  | [] => []
  | head :: tail => if test head then change head :: tail else head :: changeFirst test change tail

end Xkb
