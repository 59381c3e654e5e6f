import Xkb.Diagnostic
import Xkb.Expr.Value
import Xkb.MergeMode

/-! The virtual modifiers of a keymap: sixteen slots, taken in turn and never given back. -/

namespace Xkb

/-- A virtual modifier: its name and the real modifiers it is bound to. -/
structure VirtualModifier where
  name : String
  real : UInt8
deriving DecidableEq, Inhabited

/-- The sixteen slots for virtual modifiers. -/
structure VirtualModifiers where
  slots : Vector (Option VirtualModifier) 16
deriving DecidableEq, Inhabited

/-- Why a virtual modifier cannot be declared. -/
inductive VirtualModifierError where
  | tooMany
  | badValue (name : String) (cause : ValueError)
deriving DecidableEq, Inhabited

/-- The words of an error about a virtual modifier. -/
def VirtualModifierError.message : VirtualModifierError → String
  | tooMany => "Too many virtual modifiers defined (maximum 16)"
  | badValue name cause => s!"Declaration of {name} ignored: " ++ cause.message

namespace VirtualModifiers

/-- Sixteen free slots. -/
def empty : VirtualModifiers :=
  ⟨Vector.replicate 16 none⟩

/-- The virtual modifier in a slot. -/
def get? (modifiers : VirtualModifiers) (slot : Nat) : Option VirtualModifier :=
  (modifiers.slots[slot]?).join

/-- The slot of the virtual modifier with a name. -/
def index (modifiers : VirtualModifiers) (name : String) : Option Nat :=
  modifiers.slots.toList.findIdx? fun slot => slot.any fun known => Text.sameName known.name name

/-- The virtual modifiers with their slots. -/
def toList (modifiers : VirtualModifiers) : List (Nat × VirtualModifier) :=
  modifiers.slots.toList.zipIdx.filterMap fun (slot, index) => slot.map fun known => (index, known)

/-- Whether no slot is taken. -/
def isEmpty (modifiers : VirtualModifiers) : Bool :=
  modifiers.slots.toList.all Option.isNone

/-- The modifiers with a slot filled. -/
def set (modifiers : VirtualModifiers) (slot : Nat) (known : VirtualModifier) : VirtualModifiers :=
  ⟨modifiers.slots.setIfInBounds slot (some known)⟩

/-- Gives a known virtual modifier another binding where its mode says so. -/
def rebind (modifiers : VirtualModifiers) (slot : Nat) (name : String) (real : UInt8)
    (merge : MergeMode) : Report VirtualModifiers := do
  match modifiers.get? slot with
  | none => return modifiers
  | some known =>
    if known.real == real then return modifiers
    let (used, ignored) :=
      if merge.replacesEntity then (real, known.real) else (known.real, real)
    Report.warn s!"Virtual modifier {name} multiply defined"
      ["Using " ++ realModifiersText used ++ ", ignoring " ++ realModifiersText ignored]
    return if merge.replacesEntity then modifiers.set slot { known with real } else modifiers

/-- Defines a virtual modifier in the slot of its name or else in the first free one. -/
def define (modifiers : VirtualModifiers) (name : String) (real : Option UInt8)
    (merge : MergeMode) : Report (Except VirtualModifierError (VirtualModifiers × Nat)) := do
  match modifiers.index name with
  | some slot =>
    match real with
    | none => return .ok (modifiers, slot)
    | some real => return .ok (← modifiers.rebind slot name real merge, slot)
  | none =>
    match modifiers.slots.toList.findIdx? Option.isNone with
    | none => return .error .tooMany
    | some slot => return .ok (modifiers.set slot ⟨name, real.getD 0⟩, slot)

/-- The real modifiers that a declaration binds a virtual one to. -/
def bindingOf (name : String) : Option Expr → Except VirtualModifierError (Option UInt8)
  | none => .ok none
  | some value =>
    match value.toModMask with
    | .ok mask => .ok (some mask.real)
    | .error cause => .error (.badValue name cause)

/-- Handles the declaration of a virtual modifier, and reports why if it cannot be declared. -/
def declare (modifiers : VirtualModifiers) (name : String) (value : Option Expr)
    (merge : MergeMode) : Report (Except VirtualModifierError (VirtualModifiers × Nat)) := do
  match bindingOf name value with
  | .error cause =>
    Report.error cause.message []
    return .error cause
  | .ok real =>
    let outcome ← modifiers.define name real merge
    if let .error cause := outcome then Report.error cause.message ["Exiting"]
    return outcome

/-- The name of a slot, its number where the slot is free. -/
def slotText (modifiers : VirtualModifiers) (slot : Nat) : String :=
  match modifiers.get? slot with
  | some known => known.name
  | none => toString slot

/-- A set of virtual modifiers as text. -/
def virtualText (modifiers : VirtualModifiers) (mask : UInt16) : String :=
  "+".intercalate
    (((List.range 16).filter fun slot => meets16 mask (bit16 slot)).map modifiers.slotText)

/-- A mask of real and virtual modifiers as text. -/
def maskText (modifiers : VirtualModifiers) (mask : ModMask) : String :=
  if mask.virtual == 0 then realModifiersText mask.real
  else if mask.real == 0 then modifiers.virtualText mask.virtual
  else realModifiersText mask.real ++ "+" ++ modifiers.virtualText mask.virtual

/-- The bits of the real and of the virtual modifiers in a packed mask. -/
def maskLookup (modifiers : VirtualModifiers) : Lookup := fun element field =>
  match Lookup.modifierMasks element field with
  | some mask => some mask
  | none =>
    if element.isSome then none else (modifiers.index field).map fun slot => bit32 (8 + slot)

/-- The slots of the virtual modifiers. -/
def indexLookup (modifiers : VirtualModifiers) : Lookup := fun element field =>
  if element.isSome then none else (modifiers.index field).map Nat.toUInt32

/-- The mask of real and virtual modifiers that an expression denotes. -/
def maskOf (modifiers : VirtualModifiers) (expr : Expr) : Except ValueError ModMask :=
  return ModMask.ofPacked (← expr.toMask modifiers.maskLookup)

/-- The slot that an expression other than a known name denotes. -/
def numericSlot (expr : Expr) : Except ValueError Nat :=
  match expr.toInteger Lookup.none, expr with
  | .ok value, _ =>
    if 0 ≤ value && value < 16 then .ok value.toInt.toNat
    else .error (.illegalChoice (toString value.toInt) "0..15")
  | .error _, .ident name => .error (.unknownIdent name "virtual modifier")
  | .error _, other => .error (.mismatch "virtual modifier" other.kindName)

/-- The slot of the virtual modifier that an expression names, or numbers. -/
def slotOf (modifiers : VirtualModifiers) (expr : Expr) : Except ValueError Nat :=
  match expr with
  | .ident name =>
    match modifiers.index name with
    | some slot => .ok slot
    | none => numericSlot expr
  | _ => numericSlot expr

end VirtualModifiers

end Xkb
