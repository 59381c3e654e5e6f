import Xkb.Action.Defaults
import Xkb.Proofs.Bits
import Xkb.Proofs.Computation

/-! What holds of every action that an expression denotes: the flags that its kind can have, and
the values that go with them. -/

namespace Xkb

/-- All bits of a byte are among the allowed ones. -/
def Among (allowed flags : UInt8) : Prop :=
  flags &&& allowed = flags

instance (allowed flags : UInt8) : Decidable (Among allowed flags) :=
  inferInstanceAs (Decidable (_ = _))

namespace Among

variable {allowed flags bits : UInt8}

theorem or (left : Among allowed flags) (right : Among allowed bits) :
    Among allowed (flags ||| bits) := by
  rw [Among, or_and_distrib8, left, right]

theorem and (within : Among allowed flags) (kept : UInt8) : Among allowed (flags &&& kept) := by
  rw [Among, UInt8.and_assoc, UInt8.and_comm kept, ← UInt8.and_assoc, within]

theorem eq_zero (within : Among 0 flags) : flags = 0 := by
  rw [← within, UInt8.and_zero]

variable {rest : UInt8} {index : Nat}

theorem join (within : Among (bits ||| rest) flags) :
    (flags &&& bits) ||| (flags &&& rest) = flags := by
  rw [← and_or_distrib8]
  exact within

theorem switch8_whole (small : index < 8) (within : Among (bit8 index) flags) :
    Xkb.switch8 0 (bit8 index) (meets8 flags (bit8 index)) = flags := by
  rw [switch8_bit8 flags small UInt8.zero_and, UInt8.zero_or]
  exact within

theorem switch8_join (small : index < 8) (within : Among (bit8 index ||| rest) flags) :
    Xkb.switch8 0 (bit8 index) (meets8 flags (bit8 index)) ||| (flags &&& rest) = flags := by
  rw [switch8_bit8 flags small UInt8.zero_and, UInt8.zero_or]
  exact within.join

theorem switch8 (within : Among allowed flags) (right : Among allowed bits) (on : Bool) :
    Among allowed (switch8 flags bits on) := by
  unfold Xkb.switch8
  split
  · exact within.or right
  · exact within.and _

end Among

variable {number : Int64}

theorem SignedOperand.toInt_signed (operand : SignedOperand) (low : 0 ≤ number.toInt)
    (high : number.toInt ≤ 255) :
    (operand.signed number).toInt
      = if operand.negative then -number.toInt else number.toInt := by
  -- Neither the negation nor the narrower word wraps around.
  have negated : (-number).toInt = -number.toInt := by
    rw [Int64.toInt_neg, Int.bmod_eq_of_le] <;> omega
  unfold signed
  split
  · rw [Int64.toInt_toInt32, Int.bmod_eq_of_le] <;> omega
  · rw [Int64.toInt_toInt32, Int.bmod_eq_of_le] <;> omega

theorem SignedOperand.signed_range (value : Expr) {bound : Int} (low : 0 ≤ number.toInt)
    (high : number.toInt ≤ bound) (small : bound ≤ 255) :
    -bound ≤ ((ofExpr value).signed number).toInt ∧
      ((ofExpr value).signed number).toInt ≤ bound ∧
      ((ofExpr value).absolute = true → 0 ≤ ((ofExpr value).signed number).toInt) := by
  have plain : (ofExpr value).absolute = true → (ofExpr value).negative = false := by
    unfold ofExpr
    split <;> simp
  rw [toInt_signed _ low (by omega)]
  split
  case isTrue negative => exact ⟨by omega, by omega, fun absolute => by simp_all⟩
  case isFalse => exact ⟨by omega, by omega, fun _ => low⟩

namespace ModMask

/-- Every modifier of the first mask is one of the second. -/
def Inside (left right : ModMask) : Prop :=
  left.intersect right = left

variable {mods touched : ModMask}

theorem Inside.union (inside : mods.Inside touched) (mask : ModMask) :
    (mods.union mask).Inside (touched.union mask) := by
  have bits : ∀ {width : Nat} {left right more : BitVec width}, left &&& right = left →
      (left ||| more) &&& (right ||| more) = left ||| more := by
    intro width left right more known
    ext index within
    have bit := congrArg (·[index]) known
    simp only [BitVec.getElem_and, BitVec.getElem_or] at bit ⊢
    revert bit
    cases left[index] <;> cases right[index] <;> cases more[index] <;> decide
  exact ModMask.eq_of_toBitVec (bits (congrArg (·.real.toBitVec) inside))
    (bits (congrArg (·.virtual.toBitVec) inside))

theorem Inside.without (inside : mods.Inside touched) (mask : ModMask) :
    (mods.without mask).Inside (touched.union mask) := by
  have bits : ∀ {width : Nat} {left right more : BitVec width}, left &&& right = left →
      (left &&& ~~~more) &&& (right ||| more) = left &&& ~~~more := by
    intro width left right more known
    ext index within
    have bit := congrArg (·[index]) known
    simp only [BitVec.getElem_and, BitVec.getElem_or, BitVec.getElem_not] at bit ⊢
    revert bit
    cases left[index] <;> cases right[index] <;> cases more[index] <;> decide
  exact ModMask.eq_of_toBitVec (bits (congrArg (·.real.toBitVec) inside))
    (bits (congrArg (·.virtual.toBitVec) inside))

/-- The modifiers of a mask that are not inside it make up the rest. -/
theorem Inside.union_without (inside : mods.Inside touched) :
    mods.union (touched.without mods) = touched := by
  have bits : ∀ {width : Nat} {left right : BitVec width}, left &&& right = left →
      left ||| (right &&& ~~~left) = right := by
    intro width left right known
    ext index within
    have bit := congrArg (·[index]) known
    simp only [BitVec.getElem_and, BitVec.getElem_or, BitVec.getElem_not] at bit ⊢
    revert bit
    cases left[index] <;> cases right[index] <;> decide
  exact ModMask.eq_of_toBitVec (bits (congrArg (·.real.toBitVec) inside))
    (bits (congrArg (·.virtual.toBitVec) inside))

/-- Taking away what is not in a mask leaves it as it is. -/
theorem without_without (mods touched : ModMask) : mods.without (touched.without mods) = mods := by
  have bits : ∀ {width : Nat} {left right : BitVec width},
      left &&& ~~~(right &&& ~~~left) = left := by
    intro width left right
    ext index within
    simp only [BitVec.getElem_and, BitVec.getElem_not]
    cases left[index] <;> cases right[index] <;> decide
  exact ModMask.eq_of_toBitVec bits bits

end ModMask

namespace Action

open ActionFlag

variable {scope : Scope} {kind : ActionKind} {field : ActionField} {value : Expr}

/-- The group is an index from 0 where the flags say so, and else an offset. -/
def GroupFits (flags : UInt8) (group : Int32) : Prop :=
  -4 ≤ group.toInt ∧ group.toInt ≤ 4 ∧
    (meets8 flags groupAbsolute = true → 0 ≤ group.toInt ∧ group.toInt ≤ 3)

/-- No modifiers are given where those of the key's modifier map are meant. -/
def ModsFit (flags : UInt8) (mods : ModMask) : Prop :=
  meets8 flags modMapMods = true → mods = .empty

/-- What holds of an action that fields have been set of, whatever their values. -/
def Sound (scope : Scope) : Action → Prop
  | none | terminate | deviceValuator | custom _ => True
  | setMods act | latchMods act | lockMods act => Among 7 act.flags ∧ ModsFit act.flags act.mods
  | setGroup act | latchGroup act => Among 7 act.flags ∧ GroupFits act.flags act.group
  | lockGroup act => Among groupAbsolute act.flags ∧ GroupFits act.flags act.group
  | movePointer act => Among 7 act.flags
  | pointerButton act => Among 0 act.flags ∧ act.button.toNat ≤ 5
  | lockPointerButton act => Among lockMask act.flags ∧ act.button.toNat ≤ 5
  | setPointerDefault act =>
    Among buttonAbsolute act.flags ∧ act.affect = defaultButton ∧
      act.value.toInt ≠ 0 ∧ -5 ≤ act.value.toInt ∧ act.value.toInt ≤ 5 ∧
      (meets8 act.flags buttonAbsolute = true → 0 ≤ act.value.toInt)
  | isoLock act =>
    Among (isoGroup ||| groupAbsolute) act.flags ∧
      Among isoKeepMask act.affect ∧ -4 ≤ act.group.toInt ∧ act.group.toInt ≤ 4 ∧
      if meets8 act.flags isoGroup then
        GroupFits act.flags act.group ∧
          (meets8 act.flags groupAbsolute = false → act.group.toInt ≠ 0)
      else ModsFit act.flags act.mods
  | switchScreen act =>
    Among (switchApplication ||| switchAbsolute) act.flags ∧
      -255 ≤ act.screen.toInt ∧ act.screen.toInt ≤ 255 ∧
      (meets8 act.flags switchAbsolute = true → 0 ≤ act.screen.toInt)
  | setControls act => Among 0 act.flags ∧ act.controls &&& allControls = act.controls
  | lockControls act =>
    Among lockMask act.flags ∧ act.controls &&& allControls = act.controls
  | message act => Among 7 act.flags
  | redirectKey act =>
    act.mods.Inside act.touched ∧ (act.key = 0 ∨
      scope.keycodes.findKey (scope.keycodes.nameAt act.key) 0 = some act.key)
  | deviceButton act => Among 0 act.flags
  | lockDeviceButton act => Among lockMask act.flags

theorem ofKind_sound (scope : Scope) (kind : ActionKind) : (ofKind kind).Sound scope := by
  cases kind <;> simp [ofKind, Sound, Among, ModsFit, GroupFits, ModMask.Inside, ModMask.intersect,
    meets8]

section Reading

variable {allowed flags : UInt8}

theorem expecting_yields {α : Type} {expected : String} {read : Except ValueError α}
    {holds : α → Prop} (given : Yields read holds) :
    Yields (expecting kind field expected read) holds := by
  intro made same
  cases read with
  | error cause => cases same
  | ok found =>
    cases same
    exact given _ rfl

theorem toChoice_mem {α : Type} (table : List (String × α)) :
    Yields (value.toChoice table) fun made => made ∈ table.map Prod.snd := by
  cases value with
  | ident name =>
    simp only [Expr.toChoice, Text.lookupName]
    cases found : table.find? fun entry => Text.sameName entry.1 name with
    | none => exact .throw _ _
    | some entry => exact .pure (List.mem_map_of_mem (List.mem_of_find?_eq_some found))
  | _ => exact .throw _ _

variable {lookup : Lookup} {largest : Int64} {rule : String}

theorem readNumber_range :
    Yields (readNumber kind field lookup largest rule value) fun number =>
      0 ≤ number.toInt ∧ number.toInt ≤ largest.toInt := by
  unfold readNumber
  refine .after fun number => .ite (fun inside => .pure ?_) fun _ => .throw _ _
  simpa [Int64.le_iff_toInt_le] using inside

theorem readByte_range :
    Yields (readByte kind field lookup largest rule value) fun byte =>
      (byte.toNat : Int) ≤ largest.toInt := by
  unfold readByte
  refine .bind readNumber_range fun number ⟨low, high⟩ => .pure ?_
  rw [UInt64.toNat_toUInt8, Int64.toNat_toUInt64_of_le (Int64.le_iff_toInt_le.mpr low),
    Int64.toNatClampNeg]
  omega

theorem readLatchFlags_keeps (within : Among 7 flags) :
    Yields (readLatchFlags kind field flags value) fun made =>
      Among 7 made ∧ meets8 made (bit8 2) = meets8 flags (bit8 2) := by
  unfold readLatchFlags
  refine .after fun on => .pure ?_
  split <;> exact ⟨within.switch8 (by decide) on, meets8_switch8_of_apart flags (by decide) on⟩

theorem readLock_keeps (within : Among allowed flags) (lock : Among allowed lockMask) :
    Yields (readLock kind flags value) fun made =>
      Among allowed made ∧ meets8 made (bit8 2) = meets8 flags (bit8 2) := by
  unfold readLock
  refine .bind (expecting_yields (toChoice_mem lockNames)) fun bits member => .pure ?_
  have inside : ∀ bits ∈ lockNames.map Prod.snd, bits &&& lockMask = bits :=
    List.forall_mem_map.mpr (by decide)
  have small : Among allowed bits := by
    rw [Among, ← inside bits member, UInt8.and_assoc, UInt8.and_comm _ allowed,
      UInt8.and_comm allowed, lock]
  have apart : ∀ bits ∈ lockNames.map Prod.snd, meets8 bits (bit8 2) = false :=
    List.forall_mem_map.mpr (by decide)
  refine ⟨(within.and _).or small, ?_⟩
  rw [Bool.eq_iff_iff, meets8_or_iff, apart bits member, ← Bool.eq_iff_iff.mp
    (meets8_switch8_of_apart flags (show lockMask &&& bit8 2 = 0 by decide) false)]
  simp [switch8]

theorem readModifiers_fits (within : Among allowed flags) (bit : Among allowed (bit8 2)) :
    Yields (readModifiers scope kind flags value) fun made =>
      Among allowed made.1 ∧ ModsFit made.1 made.2 := by
  unfold readModifiers
  refine .ite (fun _ => .pure ⟨within.or bit, fun _ => rfl⟩) fun _ => ?_
  refine .after fun mask => .pure ⟨within.and _, fun present => ?_⟩
  -- The bit was just switched off.
  have absent := meets8_switch8 flags (show modMapMods ≠ 0 by decide) false
  simp [switch8, present] at absent

theorem readGroup_fits (within : Among allowed flags) (bit : Among allowed (bit8 2)) :
    Yields (readGroup kind flags value) fun made =>
      Among allowed made.1 ∧ GroupFits made.1 made.2 ∧
        (meets8 made.1 groupAbsolute = false → made.2.toInt ≠ 0) := by
  unfold readGroup
  refine .after fun group => .ite (fun inside => .pure ?_) fun _ => .throw_bind _ _ _
  simp only [Bool.and_eq_true, decide_eq_true_eq] at inside
  have low : 1 ≤ group.toInt := Int64.le_iff_toInt_le.mp inside.1
  have high : group.toInt ≤ 4 := Int64.le_iff_toInt_le.mp inside.2
  refine ⟨within.switch8 bit _, ?_⟩
  rw [GroupFits, meets8_switch8 _ (by decide)]
  split
  case isTrue absolute =>
    have index : (group - 1).toInt32.toInt = group.toInt - 1 := by
      have one : (1 : Int64).toInt = 1 := rfl
      have less : (group - 1).toInt = group.toInt - 1 := by
        rw [Int64.toInt_sub, one, Int.bmod_eq_of_le] <;> omega
      rw [Int64.toInt_toInt32, less, Int.bmod_eq_of_le] <;> omega
    simp only [index, absolute]
    exact ⟨⟨by omega, by omega, fun _ => by omega⟩, by simp⟩
  case isFalse offset =>
    have number := (SignedOperand.ofExpr value).toInt_signed
      (show 0 ≤ group.toInt by omega) (by omega)
    simp only [number, offset]
    split <;> exact ⟨⟨by omega, by omega, by simp⟩, fun _ => by omega⟩

end Reading

section Assigning

variable (scope : Scope) (kind : ActionKind) (field : ActionField) (value : Expr)

theorem assignMods_sound {act : ModAction} (within : Among 7 act.flags)
    (fits : ModsFit act.flags act.mods) :
    Yields (assignMods scope kind act field value) fun made =>
      Among 7 made.flags ∧ ModsFit made.flags made.mods := by
  unfold assignMods
  split
  case h_1 | h_2 =>
    refine .bind (readLatchFlags_keeps within) fun flags kept => .pure ⟨kept.1, ?_⟩
    exact fun present => fits (kept.2 ▸ present)
  case h_3 =>
    exact .made (readModifiers_fits within (by decide))
  case h_4 => exact .throw _ _

theorem assignLockMods_sound {act : ModAction} (within : Among 7 act.flags)
    (fits : ModsFit act.flags act.mods) :
    Yields (assignLockMods scope kind act field value) fun made =>
      Among 7 made.flags ∧ ModsFit made.flags made.mods := by
  unfold assignLockMods
  split
  · refine .bind (readLock_keeps within (by decide)) fun flags kept => .pure ⟨kept.1, ?_⟩
    exact fun present => fits (kept.2 ▸ present)
  · exact .made (readModifiers_fits within (by decide))
  · exact .throw _ _

theorem assignGroup_sound {act : GroupAction} (within : Among 7 act.flags)
    (fits : GroupFits act.flags act.group) :
    Yields (assignGroup kind act field value) fun made =>
      Among 7 made.flags ∧ GroupFits made.flags made.group := by
  unfold assignGroup
  split
  case h_1 | h_2 =>
    refine .bind (readLatchFlags_keeps within) fun flags kept => .pure ⟨kept.1, ?_⟩
    exact ⟨fits.1, fits.2.1, fun present => fits.2.2 (kept.2 ▸ present)⟩
  case h_3 =>
    exact .bind (readGroup_fits within (by decide)) fun made known => .pure ⟨known.1, known.2.1⟩
  case h_4 => exact .throw _ _

theorem assignLockGroup_sound {act : GroupAction} (within : Among groupAbsolute act.flags) :
    Yields (assignLockGroup kind act field value) fun made =>
      Among groupAbsolute made.flags ∧ GroupFits made.flags made.group := by
  unfold assignLockGroup
  split
  · exact .bind (readGroup_fits within (by decide)) fun made known => .pure ⟨known.1, known.2.1⟩
  · exact .throw _ _

theorem assignMove_sound {act : MoveAction} (within : Among 7 act.flags) :
    Yields (assignMove kind act field value) fun made => Among 7 made.flags := by
  unfold assignMove
  split
  · exact .after fun x => .pure (within.switch8 (by decide) _)
  · exact .after fun y => .pure (within.switch8 (by decide) _)
  · exact .after fun on => .pure (within.switch8 (by decide) _)
  · exact .throw _ _

variable {allowed : UInt8}

variable {act : ButtonAction} in
/-- An action on a pointer button stays sound; only a lock has flags. -/
theorem assignButton_sound (within : Among allowed act.flags)
    (lock : kind = .lockPointerButton → Among allowed lockMask)
    (small : act.button.toNat ≤ 5) :
    Yields (assignButton kind act field value) fun made =>
      Among allowed made.flags ∧ made.button.toNat ≤ 5 := by
  unfold assignButton
  split
  · refine .bind readByte_range fun byte range => .pure ⟨within, ?_⟩
    exact Int.ofNat_le.mp range
  · exact .after fun byte => .pure ⟨within, small⟩
  · refine .ite (fun isLock => ?_) fun _ => .throw_bind _ _ _
    exact .bind (readLock_keeps within (lock (beq_iff_eq.mp isLock))) fun flags kept =>
      .pure ⟨kept.1, small⟩
  · exact .throw _ _

theorem assignPointerDefault_sound {act : PointerDefaultAction}
    (sound : (setPointerDefault act).Sound scope) :
    Yields (assignPointerDefault kind act field value) fun made =>
      (setPointerDefault made).Sound scope := by
  obtain ⟨within, component, rest⟩ := sound
  unfold assignPointerDefault
  split
  case h_1 =>
    have only : ∀ affect ∈ pointerDefaultNames.map Prod.snd, affect = defaultButton :=
      List.forall_mem_map.mpr (by decide)
    exact .bind (expecting_yields (toChoice_mem pointerDefaultNames)) fun affect member =>
      .pure ⟨within, only affect member, rest⟩
  case h_2 | h_3 =>
    refine .bind readNumber_range fun number ⟨low, high⟩ => .ite
      (fun _ => .throw_bind _ _ _) fun some => .pure ?_
    have nonzero : number.toInt ≠ 0 := fun zero =>
      some (beq_iff_eq.mpr (Int64.toInt_inj.mp zero))
    have signed := SignedOperand.signed_range value low high (by decide)
    refine ⟨within.switch8 (by decide) _, component, ?_, signed.1, signed.2.1, ?_⟩
    · rw [SignedOperand.toInt_signed _ low (Int.le_trans high (by decide))]
      split <;> omega
    · rw [meets8_switch8 _ (by decide)]
      exact signed.2.2
  case h_4 => exact .throw _ _

/-- An ISO lock stays sound: what was set last decides which of its values count. -/
theorem assignIsoLock_sound {act : IsoLockAction} (sound : (isoLock act).Sound scope) :
    Yields (assignIsoLock scope kind act field value) fun made => (isoLock made).Sound scope := by
  obtain ⟨within, kept, low, high, rest⟩ := sound
  unfold assignIsoLock
  split
  case h_1 =>
    refine .bind (readModifiers_fits within (by decide)) fun made known => .pure ?_
    refine ⟨known.1.and _, kept, low, high, ?_⟩
    have offGroup : meets8 (made.1 &&& ~~~isoGroup) isoGroup = false :=
      meets8_switch8 made.1 (by decide) false
    have same : meets8 (made.1 &&& ~~~isoGroup) modMapMods
        = meets8 made.1 modMapMods :=
      meets8_switch8_of_apart made.1 (show isoGroup &&& _ = 0 by decide) false
    rw [if_neg (by simp [offGroup])]
    exact fun present => known.2 (same ▸ present)
  case h_2 =>
    refine .bind (readGroup_fits within (by decide)) fun made known => .pure ?_
    obtain ⟨flagsWithin, fits, offset⟩ := known
    refine ⟨flagsWithin.or (by decide), kept, fits.1, fits.2.1, ?_⟩
    have onGroup : meets8 (made.1 ||| isoGroup) isoGroup = true :=
      meets8_switch8 made.1 (by decide) true
    have same : meets8 (made.1 ||| isoGroup) groupAbsolute
        = meets8 made.1 groupAbsolute :=
      meets8_switch8_of_apart made.1 (show isoGroup &&& _ = 0 by decide) true
    rw [if_pos onGroup, GroupFits, same]
    exact ⟨fits, offset⟩
  case h_3 =>
    refine .after fun mask => .pure ⟨within, ?_, low, high, rest⟩
    rw [Among, UInt8.and_assoc, UInt8.and_self]
  case h_4 => exact .throw _ _

theorem assignScreen_sound {act : ScreenAction} (sound : (switchScreen act).Sound scope) :
    Yields (assignScreen kind act field value) fun made => (switchScreen made).Sound scope := by
  obtain ⟨within, low, high, absolute⟩ := sound
  unfold assignScreen
  split
  case h_1 =>
    refine .bind readNumber_range fun number ⟨low, high⟩ => .pure ?_
    have signed := SignedOperand.signed_range value low high (by decide)
    refine ⟨within.switch8 (by decide) _, signed.1, signed.2.1, ?_⟩
    rw [meets8_switch8 _ (by decide)]
    exact signed.2.2
  case h_2 =>
    refine .after fun same => .pure ⟨within.switch8 (by decide) _, low, high, ?_⟩
    rw [meets8_switch8_of_apart _ (by decide)]
    exact absolute
  case h_3 => exact .throw _ _

/-- An action on controls stays sound; only a lock has flags. -/
theorem assignControls_sound {act : ControlsAction} (within : Among allowed act.flags)
    (lock : kind = .lockControls → Among allowed lockMask)
    (known : act.controls &&& allControls = act.controls) :
    Yields (assignControls kind act field value) fun made =>
      Among allowed made.flags ∧ made.controls &&& allControls = made.controls := by
  unfold assignControls
  split
  case h_1 =>
    refine .after fun mask => .pure ⟨within, ?_⟩
    rw [UInt32.and_assoc, UInt32.and_self]
  case h_2 =>
    refine .ite (fun isLock => ?_) fun _ => .throw_bind _ _ _
    exact .bind (readLock_keeps within (lock (beq_iff_eq.mp isLock))) fun flags kept =>
      .pure ⟨kept.1, known⟩
  case h_3 => exact .throw _ _

theorem assignMessage_sound {act : MessageAction} (index : Option Expr)
    (within : Among 7 act.flags) :
    Yields (assignMessage kind act field index value) fun made => Among 7 made.flags := by
  unfold assignMessage
  split
  case h_1 =>
    refine .after fun mask => .pure ((within.and _).or ?_)
    rw [UInt8.and_comm]
    exact Among.and (by decide) _
  case h_2 => exact .after fun on => .pure (within.switch8 (by decide) _)
  case h_3 => exact .after fun data => .pure within
  case h_4 => exact .throw _ _

theorem findKey_nameAt {table : KeycodeTable} {name : KeyName} {key : Nat}
    (found : table.findKey name 0 = some key) : table.findKey (table.nameAt key) 0 = some key := by
  have carried : ∀ {name : KeyName}, table.findNamed name 0 = some key →
      table.findKey (table.nameAt key) 0 = some key := by
    intro name found
    have named : table.names[key]? = some name := by simpa using List.find?_some found
    rw [KeycodeTable.nameAt, named, Option.getD_some, KeycodeTable.findKey, found]
  unfold KeycodeTable.findKey at found
  split at found
  case h_1 code here =>
    cases found
    exact carried here
  case h_2 =>
    obtain ⟨real, _, here⟩ := Option.bind_eq_some_iff.mp found
    exact carried here

theorem assignRedirect_sound {act : RedirectAction} (sound : (redirectKey act).Sound scope) :
    Yields (assignRedirect scope kind act field value) fun made =>
      (redirectKey made).Sound scope := by
  obtain ⟨inside, key⟩ := sound
  unfold assignRedirect
  split
  case h_1 =>
    refine .after fun name => ?_
    split
    case h_1 key found => exact .pure ⟨inside, .inr (findKey_nameAt found)⟩
    case h_2 => exact .throw _ _
  case h_2 => exact .after fun made => .pure ⟨inside.union made.2, key⟩
  case h_3 => exact .after fun made => .pure ⟨inside.without made.2, key⟩
  case h_4 => exact .throw _ _

/-- An action on a device button stays sound; only a lock has flags. -/
theorem assignDeviceButton_sound {act : DeviceButtonAction} (within : Among allowed act.flags)
    (lock : kind = .lockDeviceButton → Among allowed lockMask) :
    Yields (assignDeviceButton kind act field value) fun made => Among allowed made.flags := by
  unfold assignDeviceButton
  split
  case h_1 | h_3 | h_4 => exact .after fun byte => .pure within
  case h_2 =>
    refine .ite (fun isLock => ?_) fun _ => .throw_bind _ _ _
    exact .bind (readLock_keeps within (lock (beq_iff_eq.mp isLock))) fun flags kept => .pure kept.1
  case h_5 => exact .throw _ _

end Assigning

/-- Setting a field keeps an action sound, whatever the field and the value. -/
theorem assign_sound {action : Action} (sound : action.Sound scope) (field : ActionField)
    (index : Option Expr) (value : Expr) :
    Yields (action.assign scope field index value) (Sound scope) := by
  unfold assign
  refine .ite (fun _ => .throw_bind _ _ _) fun _ => ?_
  cases action with
  | none | terminate | deviceValuator => exact .throw _ _
  | setMods act | latchMods act =>
    exact .made (assignMods_sound scope _ field value sound.1 sound.2)
  | lockMods act => exact .made (assignLockMods_sound scope _ field value sound.1 sound.2)
  | setGroup act | latchGroup act => exact .made (assignGroup_sound _ field value sound.1 sound.2)
  | lockGroup act => exact .made (assignLockGroup_sound _ field value sound.1)
  | movePointer act => exact .made (assignMove_sound _ field value sound)
  | pointerButton act => exact .made (assignButton_sound _ field value sound.1 nofun sound.2)
  | lockPointerButton act =>
    exact .made (assignButton_sound _ field value sound.1 (fun _ => by decide) sound.2)
  | setPointerDefault act => exact .made (assignPointerDefault_sound scope _ field value sound)
  | isoLock act => exact .made (assignIsoLock_sound scope _ field value sound)
  | switchScreen act => exact .made (assignScreen_sound scope _ field value sound)
  | setControls act => exact .made (assignControls_sound _ field value sound.1 nofun sound.2)
  | lockControls act =>
    exact .made (assignControls_sound _ field value sound.1 (fun _ => by decide) sound.2)
  | message act => exact .made (assignMessage_sound _ field value index sound)
  | redirectKey act => exact .made (assignRedirect_sound scope _ field value sound)
  | deviceButton act => exact .made (assignDeviceButton_sound _ field value sound nofun)
  | lockDeviceButton act =>
    exact .made (assignDeviceButton_sound _ field value sound (fun _ => by decide))
  | custom act => exact .after fun made => .pure True.intro

end Action

/-- Every action that an expression denotes is sound, whatever the defaults. -/
theorem ActionDefaults.resolve_sound (defaults : ActionDefaults) (scope : Scope) (expr : Expr) :
    Yields (defaults.resolve scope expr) (Action.Sound scope) := by
  unfold resolve
  split
  case h_1 name args =>
    split
    case h_1 => exact .throw _ _
    case h_2 kind _ =>
      -- Both the defaults and the arguments set one field after another.
      refine .bind (.foldlM (Action.ofKind_sound scope kind) fun action entry sound =>
        Action.assign_sound sound entry.field entry.index entry.value) fun start sound => ?_
      refine .foldlM sound fun action arg sound => ?_
      refine .after fun target => ?_
      cases target.element with
      | some element => exact .throw_bind _ _ _
      | none => exact .after fun field => Action.assign_sound sound field target.index _
  case h_2 => exact .throw _ _

end Xkb
