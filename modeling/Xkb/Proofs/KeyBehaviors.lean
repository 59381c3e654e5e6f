import Xkb.Proofs.AugmentOrder
import Xkb.Proofs.Section.Cycles
import Xkb.Proofs.Section.KeyNames
import Xkb.Proofs.Section.PlacedKeys

/-! Of two statements for a key that override, the last one that gives a behavior decides how the key
behaves. -/

namespace Xkb

namespace KeyDraft

variable {given : Bool} {left right : KeyDraft}

/-- Keys for which radio groups may be left alike and which, once each was given a behavior, behave
alike on every code. -/
structure Agrees (given : Bool) (left right : KeyDraft) : Prop where
  allowNone : left.allowNone = right.allowNone
  settled : given = true → ∀ keycodes, left.settledBehavior keycodes = right.settledBehavior keycodes
  marked : given = true → left.definition.defines KeyField.behavior = true
    ∧ right.definition.defines KeyField.behavior = true

/-- Settings of two keys that leave them agreeing where both are accepted. -/
abbrev SetAgreeing (given : Bool) (setting other : Report (KeyDraft × Bool)) : Prop :=
  Alike (AtLevels fun _ _ => True) setting other fun made made' =>
    made.2 = true → made'.2 = true → made.1.Agrees given made'.1

theorem settledBehavior_of_conduct {keycodes : KeycodeTable} (same : left.conduct = right.conduct) :
    left.settledBehavior keycodes = right.settledBehavior keycodes := by
  simp only [conduct, Prod.mk.injEq] at same
  simp only [settledBehavior, same]

theorem Assigned.defines {key made : KeyDraft} (assigned : key.Assigned made) {field : UInt32}
    (defined : key.definition.defines field = true) : made.definition.defines field = true := by
  have marked (other : UInt32) : (key.definition.define other).defines field = true := by
    rw [Definition.defines_define, defined, Bool.true_or]
  cases assigned with
  | defaultType _ | virtualMods _ | autoRepeat _ | groupRange _ | behavior _ _ _ => exact marked _
  | _ => exact defined

theorem SetsAside.agreeing {setting other : Report (KeyDraft × Bool)} (aside : left.SetsAside setting)
    (otherAside : right.SetsAside other) (agrees : left.Agrees given right) :
    SetAgreeing given setting other := by
  intro first second _
  obtain ⟨assigned, same⟩ := aside first
  obtain ⟨otherAssigned, otherSame⟩ := otherAside second
  refine ⟨fun _ _ => ⟨?_, fun known keycodes => ?_, fun known => ?_⟩, trivial⟩
  · exact ((congrArg (·.2.2) same).trans agrees.allowNone).trans (congrArg (·.2.2) otherSame).symm
  · rw [settledBehavior_of_conduct same, settledBehavior_of_conduct otherSame]
    exact agrees.settled known keycodes
  · obtain ⟨defined, otherDefined⟩ := agrees.marked known
    exact ⟨assigned.defines defined, otherAssigned.defines otherDefined⟩

theorem refuse_agreeing {message other : String} {actions : List String} :
    SetAgreeing given (left.refuse message actions) (right.refuse other actions) :=
  AtLevels.error (.pure nofun)

/-- A behavior that both keys are given, with the same key in their place if it is an overlay. -/
theorem Agrees.become (same : left.allowNone = right.allowNone) (behavior : Behavior)
    {target other : Option KeyName}
    (placed : ∀ overlay code, behavior.kind = .overlay overlay code → target = other) :
    ({ left with behavior, overlayKey := target }.define KeyField.behavior).Agrees given
      ({ right with behavior, overlayKey := other }.define KeyField.behavior) := by
  have defined (definition : Definition) :
      (definition.define KeyField.behavior).defines KeyField.behavior = true := by
    rw [Definition.defines_define, show meets32 KeyField.behavior KeyField.behavior = true by decide,
      Bool.or_true]
  refine ⟨same, fun _ keycodes => ?_, fun _ => ⟨defined _, defined _⟩⟩
  simp only [settledBehavior, define]
  cases kind : behavior.kind with
  | overlay overlay code => simp only [placed overlay code kind]
  | _ => rfl

variable (agrees : left.Agrees given right)

include agrees

theorem setLock_agreeing (value : Expr) :
    SetAgreeing true (left.setLock value) (right.setLock value) := by
  simp only [setLock]
  split
  · next behavior chosen =>
    have plain : ∀ overlay code, behavior.kind ≠ .overlay overlay code :=
      @readChoice_holds value Behavior
        (fun made => ∀ overlay code, made.kind ≠ .overlay overlay code) _ _ _ (by simp)
        (by simp [Behavior.default]) (by simp) _ chosen
    exact .pure fun _ _ => .become agrees.allowNone behavior
      fun overlay code kind => absurd kind (plain overlay code)
  · exact refuse_agreeing

/-- Whether a value is a radio group other than none. -/
def isRadioGroup (value : Expr) : Bool :=
  match value.toInteger (Lookup.ofTable [("none", 0)]) with
  | .ok group => group != 0
  | .error _ => false

theorem setRadioGroup_agreeing (permanent : Bool) (value : Expr) :
    SetAgreeing (given || isRadioGroup value) (left.setRadioGroup permanent value)
      (right.setRadioGroup permanent value) := by
  simp only [setRadioGroup, isRadioGroup]
  cases value.toInteger (Lookup.ofTable [("none", 0)]) with
  | error _ => exact refuse_agreeing
  | ok group =>
    refine .ite (fun none => ?_) fun some => ?_
    · -- No radio group takes the behavior away, without marking that.
      refine .pure fun _ _ => ⟨agrees.allowNone, fun _ _ => rfl, fun known => ?_⟩
      exact agrees.marked (by simpa [beq_iff_eq.mp none] using known)
    · refine .ite (fun _ => refuse_agreeing) fun _ => ?_
      have allowed : ∀ slot, meets32 left.allowNone slot = meets32 right.allowNone slot := by
        simp [agrees.allowNone]
      rw [allowed]
      refine .pure fun _ _ => .become agrees.allowNone _ ?_
      rintro _ _ ⟨⟩

theorem setOverlay_agreeing (field : String) (value : Expr) :
    SetAgreeing true (left.setOverlay field value) (right.setOverlay field value) := by
  simp only [setOverlay]
  split
  · exact refuse_agreeing
  · exact refuse_agreeing
  · exact .pure fun _ _ => .become agrees.allowNone _ fun _ _ _ => rfl

theorem setAllowNone_agreeing (index : Option Expr) (value : Expr) :
    SetAgreeing given (left.setAllowNone index value) (right.setAllowNone index value) := by
  simp only [setAllowNone, agrees.allowNone]
  have set (groups : UInt32) (on : Bool) :
      { left with allowNone := switch32 right.allowNone groups on }.Agrees given
        { right with allowNone := switch32 right.allowNone groups on } :=
    ⟨rfl, agrees.settled, agrees.marked⟩
  split
  · split
    · exact .pure fun _ _ => set _ _
    · exact refuse_agreeing
  · exact refuse_agreeing
  · refine .ite (fun _ => refuse_agreeing) fun _ => ?_
    split
    · exact .pure fun _ _ => set _ _
    · exact refuse_agreeing

/-- Whether a field in lower case, set to a value, gives a key a behavior; a radio group that is none
gives none. -/
def givesBehavior (field : String) (value : Expr) : Bool :=
  match field with
  | "locking" | "lock" | "locks" => true
  | "radiogroup" | "permanentradiogroup" => isRadioGroup value
  | _ => (Text.afterLead "overlay" field).isSome || (Text.afterLead "permanentoverlay" field).isSome

theorem setScalar_agreeing (modifiers : VirtualModifiers) (field : String) (index : Option Expr)
    (value : Expr) :
    SetAgreeing (given || givesBehavior (Text.foldCase field) value)
      (left.setScalar modifiers field index value) (right.setScalar modifiers field index value) := by
  have aside {set : KeyDraft → Report (KeyDraft × Bool)} {gives : Bool} (silent : gives = false)
      (sets : ∀ {key : KeyDraft}, key.SetsAside (set key)) :
      SetAgreeing (given || gives) (set left) (set right) := by
    rw [silent, Bool.or_false]
    exact sets.agreeing sets agrees
  have decided {setting other : Report (KeyDraft × Bool)} {gives : Bool} (loud : gives = true)
      (sets : SetAgreeing true setting other) : SetAgreeing (given || gives) setting other := by
    rwa [loud, Bool.or_true]
  simp only [setScalar]
  generalize Text.foldCase field = lower
  split
  case h_1 => exact aside rfl (setType_aside index value)
  case h_2 | h_3 | h_4 => exact aside rfl (setVirtualMods_aside modifiers value)
  case h_5 | h_6 | h_7 => exact decided rfl (setLock_agreeing agrees value)
  case h_8 => exact setRadioGroup_agreeing agrees false value
  case h_9 => exact setRadioGroup_agreeing agrees true value
  case h_10 =>
    rw [show givesBehavior "allownone" value = false from rfl, Bool.or_false]
    exact setAllowNone_agreeing agrees index value
  case h_11 | h_12 | h_13 => exact aside rfl (setRepeat_aside value)
  case h_14 locking lock locks radio permanent _ _ _ _ =>
    have other : givesBehavior lower value = ((Text.afterLead "overlay" lower).isSome
        || (Text.afterLead "permanentoverlay" lower).isSome) := by
      unfold givesBehavior
      split
      · exact absurd rfl locking
      · exact absurd rfl lock
      · exact absurd rfl locks
      · exact absurd rfl radio
      · exact absurd rfl permanent
      · rfl
    refine .ite (fun overlay => ?_) fun plain => ?_
    · exact decided (other.trans overlay) (setOverlay_agreeing agrees lower value)
    · exact aside (other.trans (Bool.eq_false_iff.mpr plain)) (setOther_aside _ _ _ _)

theorem setField_agreeing (scope : Scope) (defaults otherDefaults : ActionDefaults)
    (field : String) (index value : Option Expr) :
    SetAgreeing (given || givesBehavior (Text.foldCase field) (value.getD (.boolean true)))
      (left.setField scope defaults field index value)
      (right.setField scope otherDefaults field index value) := by
  simp only [setField]
  split
  · next here =>
    rw [here, show givesBehavior "symbols" _ = false from rfl, Bool.or_false]
    exact (addSyms_aside index value).agreeing (addSyms_aside index value) agrees
  · next here =>
    rw [here, show givesBehavior "actions" _ = false from rfl, Bool.or_false]
    exact (addActions_aside scope defaults index value).agreeing
      (addActions_aside scope otherDefaults index value) agrees
  · exact setScalar_agreeing agrees scope.modifiers field index _

end KeyDraft

namespace Assignment

/-- Whether an assignment in the body of a key gives the key a behavior. -/
def givesBehavior (assigned : Assignment) : Bool :=
  match assigned.target with
  | none | some (.fieldRef ..) => false
  | some target =>
    match target.toTarget with
    | .ok target =>
      KeyDraft.givesBehavior (Text.foldCase target.field) (assigned.value.getD (.boolean true))
    | .error _ => false

/-- Whether an assignment in the body of a key says which radio groups the keys after it start out
to allow to be left. -/
def allowsNone (assigned : Assignment) : Bool :=
  match assigned.target with
  | some (.fieldRef element field) =>
    Text.sameName element "key" && Text.foldCase field == "allownone"
  | _ => false

end Assignment

namespace SymbolContents

variable {given : Bool} {left right : KeyDraft} {body : List Assignment}

/-- Readings of assignments in bodies that leave the keys agreeing where both are accepted. -/
abbrev ReadAgreeing (given : Bool) (reading other : Report ((SymbolContents × KeyDraft) × Bool)) :
    Prop :=
  Alike (AtLevels fun _ _ => True) reading other fun made made' =>
    made.2 = true → made'.2 = true → made.1.2.Agrees given made'.1.2

theorem handleBodyAssignment_agreeing (agrees : left.Agrees given right) (scope : Scope)
    (contents other : SymbolContents) (assigned : Assignment) :
    ReadAgreeing (given || assigned.givesBehavior)
      (contents.handleBodyAssignment scope left assigned)
      (other.handleBodyAssignment scope right assigned) := by
  have set (field : String) (index : Option Expr) :
      ReadAgreeing (given || KeyDraft.givesBehavior (Text.foldCase field)
          (assigned.value.getD (.boolean true)))
        (do
          let made ← left.setField scope contents.actions field index assigned.value
          return ((contents, made.1), made.2))
        (do
          let made ← right.setField scope other.actions field index assigned.value
          return ((other, made.1), made.2)) :=
    .bind (KeyDraft.setField_agreeing agrees scope contents.actions other.actions field index
      assigned.value) fun made made' known => .pure known
  have unnamed : ∀ value other,
      KeyDraft.givesBehavior (Text.foldCase (unnamedField value)) other = false := by
    intro value other
    unfold unnamedField
    split <;> rfl
  simp only [handleBodyAssignment]
  split
  · next target =>
    have list := set (unnamedField assigned.value) none
    rw [unnamed] at list
    simpa only [Assignment.givesBehavior, target] using list
  · next target =>
    simp only [Assignment.givesBehavior, target, Bool.or_false]
    exact fun first second _ => ⟨fun _ _ => agrees, trivial⟩
  · next named own target =>
    simp only [Assignment.givesBehavior, target]
    cases named.toTarget with
    | ok found => exact set found.field found.index
    | error _ => exact AtLevels.error (.pure (by simp))

/-- A body makes keys that agree of keys that agree about radio groups, if it gives a behavior. -/
theorem handleBody_agreeing (agrees : left.Agrees given right) (scope : Scope)
    (contents other : SymbolContents) (body : List Assignment) :
    ReadAgreeing (given || body.any (·.givesBehavior)) (contents.handleBody scope left body)
      (other.handleBody scope right body) := by
  -- Once an assignment was refused, nothing is asked of the keys any more.
  have onward : ∀ (body : List Assignment) (given : Bool)
      (made made' : (SymbolContents × KeyDraft) × Bool),
      (made.2 = true → made'.2 = true → made.1.2.Agrees given made'.1.2) →
      ReadAgreeing (given || body.any (·.givesBehavior))
        (body.foldlM (fun made assigned => do
          let next ← made.1.1.handleBodyAssignment scope made.1.2 assigned
          return (next.1, next.2 && made.2)) made)
        (body.foldlM (fun made assigned => do
          let next ← made.1.1.handleBodyAssignment scope made.1.2 assigned
          return (next.1, next.2 && made.2)) made') := by
    intro body
    induction body with
    | nil =>
      intro given made made' agrees
      exact .pure (by simpa using agrees)
    | cons assigned rest ih =>
      intro given made made' agrees
      rw [List.foldlM_cons, List.foldlM_cons, List.any_cons, ← Bool.or_assoc]
      refine .bind (?_ : ReadAgreeing (given || assigned.givesBehavior) _ _) (ih _)
      refine .bind (?_ : Alike _ _ _ fun next next' => made.2 = true → made'.2 = true →
        next.2 = true → next'.2 = true →
          next.1.2.Agrees (given || assigned.givesBehavior) next'.1.2) fun next next' known => ?_
      · intro first second begins
        refine ⟨fun right right' => ?_, trivial⟩
        exact (handleBodyAssignment_agreeing (agrees right right') scope _ _ assigned first second
          begins).1
      · refine .pure fun right right' => ?_
        simp only [Bool.and_eq_true] at right right'
        exact known right.2 right'.2 right.1 right'.1
  exact onward body given ((contents, left), true) ((other, right), true) fun _ _ => agrees

/-- The body of a key leaves what keys start out to allow of radio groups, if nothing in it is about
that. -/
theorem handleBody_allowNone (keeps : ∀ assigned ∈ body, assigned.allowsNone = false) (scope : Scope)
    (contents : SymbolContents) (key : KeyDraft) :
    Gives (contents.handleBody scope key body) fun made =>
      made.1.1.base.allowNone = contents.base.allowNone := by
  refine .foldlM rfl fun made assigned member known => ?_
  refine .bind (?_ : Gives _ fun next : (SymbolContents × KeyDraft) × Bool =>
    next.1.1.base.allowNone = made.1.1.base.allowNone) fun next same => .pure (same.trans known)
  have away := keeps assigned member
  simp only [handleBodyAssignment]
  split
  · exact .after fun _ => .pure rfl
  · next element field target =>
    simp only [Assignment.allowsNone, target, Bool.and_eq_false_imp] at away
    simp only [handleAssignment, target, Option.map_some, Expr.toTarget]
    refine .bind (?_ : Gives _ fun next : SymbolContents × Bool =>
      next.1.base.allowNone = made.1.1.base.allowNone) fun next same => .pure same
    refine .ite (fun onKeys => ?_) fun _ => ?_
    · refine .bind (KeyDraft.setField_sets scope _ field none _) fun set known => ?_
      exact .pure (known.2 (by simpa using away onKeys))
    · split
      · exact .pure rfl
      · exact .after fun _ => .pure rfl
  · split
    · exact .after fun _ => .pure rfl
    · exact .after fun _ => .pure rfl

end SymbolContents

/-- What happens to a list whose first entry that satisfies a test is changed twice. -/
theorem changeFirst_changeFirst {α : Type} {test : α → Bool} {change again : α → α}
    (same : ∀ item, test (change item) = test item) (list : List α) :
    changeFirst test again (changeFirst test change list) = changeFirst test (again ∘ change) list := by
  induction list with
  | nil => rfl
  | cons head tail ih =>
    by_cases here : test head = true
    · simp [changeFirst, here, same]
    · simp [changeFirst, here, ih]

/-- The keys of a section as far as their behaviors go: the name of each key and the behavior that it
has on a code, if any. -/
abbrev NamedBehaviors : Type :=
  List (KeyName × Option Behavior)

namespace NamedBehaviors

variable (keycodes : KeycodeTable)

/-- The behavior of one more key, which counts more than an earlier one. -/
def put (known : NamedBehaviors) (name : KeyName) (behavior : Option Behavior) : NamedBehaviors :=
  match SymbolContents.mergedName keycodes (known.map Prod.fst) name with
  | some target => changeFirst (·.1 == target) (fun old => (old.1, behavior)) known
  | none => known ++ [(name, behavior)]

/-- The last behavior of a name counts. -/
theorem put_put (known : NamedBehaviors) (name : KeyName) (first second : Option Behavior) :
    (known.put keycodes name first).put keycodes name second = known.put keycodes name second := by
  cases found : SymbolContents.mergedName keycodes (known.map Prod.fst) name with
  | some target =>
    have names : (known.put keycodes name first).map Prod.fst = known.map Prod.fst := by
      simp only [put, found]
      exact map_changeFirst (by simp) known
    rw [put, names]
    simp only [put, found]
    exact changeFirst_changeFirst (by simp) known
  | none =>
    have fresh : name ∉ known.map Prod.fst := by
      intro member
      rw [SymbolContents.mergedName, if_pos member] at found
      cases found
    have appended : known.put keycodes name first = known ++ [(name, first)] := by
      simp only [put, found]
    have here : SymbolContents.mergedName keycodes ((known ++ [(name, first)]).map Prod.fst) name
        = some name := by
      rw [SymbolContents.mergedName, if_pos (by simp)]
    have others : ∀ other ∈ known, (other.1 == name) = false := by
      intro other member
      simp only [beq_eq_false_iff_ne]
      exact fun same => fresh (same ▸ List.mem_map_of_mem member)
    rw [appended, put, here, put, found]
    exact changeFirst_split others (by simp)

/-- The behaviors on all codes after keys were put there one after another. -/
def place (known : NamedBehaviors) (behaviors : Vector Behavior 256) : Vector Behavior 256 :=
  known.foldl (fun behaviors key =>
    (keycodes.codesFor key.1).foldl (fun behaviors code =>
      behaviors.setIfInBounds code (key.2.getD ((behaviors[code]?).getD .default))) behaviors) behaviors

end NamedBehaviors

namespace KeyDraft

variable {types : TypeTable} {keycodes : KeycodeTable} {old new : KeyDraft}

/-- The name of a key, and its behavior on a code. -/
def named (keycodes : KeycodeTable) (key : KeyDraft) : KeyName × Option Behavior :=
  (key.name, key.settledBehavior keycodes)

theorem putOn_behaviors (codes : List Nat) (key : KeyDraft) (keys : Vector Key 256) :
    (putOn types keycodes codes key keys).map Key.behavior =
      codes.foldl (fun behaviors code => behaviors.setIfInBounds code
        ((key.settledBehavior keycodes).getD ((behaviors[code]?).getD .default)))
        (keys.map Key.behavior) := by
  induction codes generalizing key keys with
  | nil => rfl
  | cons code rest ih =>
    have previous : ((keys[code]?).getD .empty).behavior =
        (((keys.map Key.behavior)[code]?).getD .default) := by
      rw [Vector.getElem?_map]
      cases keys[code]? <;> rfl
    rw [putOn, ih, List.foldl_cons, Vector.map_setIfInBounds, ← previous]
    rfl

theorem putAll_behaviors (drafts : List KeyDraft) (keys : Vector Key 256) :
    (putAll types keycodes drafts keys).map Key.behavior =
      NamedBehaviors.place keycodes (drafts.map (named keycodes)) (keys.map Key.behavior) := by
  induction drafts generalizing keys with
  | nil => rfl
  | cons key rest ih =>
    refine (ih _).trans ?_
    rw [putOn_behaviors]
    rfl

theorem prepare_named (key : KeyDraft) : key.prepare.named keycodes = key.named keycodes :=
  Prod.ext key.prepare_name (settledBehavior_of_conduct key.prepare_conduct)

/-- A behavior that is given and overrides is that of both keys made one. -/
theorem merge_overrides (keycodes : KeycodeTable) (overrides : new.definition.merge = .override) :
    Gives (old.merge new) fun made => made.name = old.name ∧
      (new.definition.defines KeyField.behavior = true →
        made.settledBehavior keycodes = new.settledBehavior keycodes) := by
  refine (merge_joining (by simp [overrides])).mono ?_
  rintro _ ⟨grouped, joining, rfl⟩
  refine ⟨joining.name, fun defined => ?_⟩
  have takes : grouped.definition.takes new.definition KeyField.behavior = true := by
    simp [Definition.takes, defined, overrides, MergeMode.clobbers]
  simp only [settledBehavior, mergeFields, takes, if_true]

end KeyDraft

namespace SymbolContents

variable {keycodes : KeycodeTable} {new : KeyDraft} {body : List Assignment}

/-- The keys of a section after one was added: they behave as before, but for the key of its name,
which behaves as it was given, if it was given a behavior. -/
def PutsBehavior (keycodes : KeycodeTable) (new : KeyDraft) (keys made : List KeyDraft) : Prop :=
  ∃ behavior, (new.definition.defines KeyField.behavior = true →
      behavior = new.settledBehavior keycodes) ∧
    made.map (KeyDraft.named keycodes) =
      NamedBehaviors.put keycodes (keys.map (KeyDraft.named keycodes)) new.name behavior

theorem mergeNamed_behaviors (keycodes : KeycodeTable)
    (overrides : new.definition.merge = .override) (name : KeyName) (keys : List KeyDraft) :
    Gives (mergeNamed name new keys) fun made => ∃ behavior,
      (new.definition.defines KeyField.behavior = true → behavior = new.settledBehavior keycodes) ∧
      made.map (KeyDraft.named keycodes) = changeFirst (·.1 == name) (fun old => (old.1, behavior))
        (keys.map (KeyDraft.named keycodes)) := by
  induction keys with
  | nil => exact .pure ⟨_, fun _ => rfl, rfl⟩
  | cons old rest ih =>
    simp only [mergeNamed, List.map_cons, changeFirst]
    refine .ite (fun found => ?_) fun other => ?_
    · refine .bind (KeyDraft.merge_overrides keycodes overrides) fun made known => ?_
      refine .pure ⟨made.settledBehavior keycodes, known.2, ?_⟩
      rw [if_pos (show ((old.named keycodes).1 == name) = true from found)]
      simp [KeyDraft.named, known.1]
    · refine .bind ih fun made known => ?_
      obtain ⟨behavior, given, same⟩ := known
      refine .pure ⟨behavior, given, ?_⟩
      rw [if_neg (show ¬((old.named keycodes).1 == name) = true from other), List.map_cons, same]

theorem addKey_behaviors (overrides : new.definition.merge = .override) (contents : SymbolContents) :
    Gives (contents.addKey keycodes new) fun made =>
      made.base = contents.base ∧ PutsBehavior keycodes new contents.keys made.keys := by
  have names : (contents.keys.map (KeyDraft.named keycodes)).map Prod.fst =
      contents.keys.map KeyDraft.name := by
    rw [List.map_map]
    rfl
  rw [addKey_eq]
  simp only [PutsBehavior, NamedBehaviors.put, names]
  cases mergedName keycodes (contents.keys.map KeyDraft.name) new.name with
  | some name =>
    refine .bind (mergeNamed_behaviors keycodes overrides name contents.keys) fun made known => ?_
    exact .pure ⟨rfl, known⟩
  | none =>
    refine .pure ⟨rfl, _, fun _ => rfl, ?_⟩
    rw [List.map_append]
    rfl

/-- A key of a section before its body is read. -/
def startKey (contents : SymbolContents) (header : Header) (mode : MergeMode) (name : KeyName) :
    KeyDraft :=
  { contents.base with
    definition := { contents.base.definition with merge := mode, origin := header.origin }, name }

/-- What is left to do for a key once its body is read. -/
def finishKey (keycodes : KeycodeTable) (map : String) (read : (SymbolContents × KeyDraft) × Bool) :
    Report (SymbolContents × Bool) := do
  if !read.2 then return (read.1.1, false)
  let (key, right) ← read.1.2.moveGroup read.1.1.group map
  if !right then return (read.1.1, false)
  return (← read.1.1.addKey keycodes key, true)

/-- A key whose body is read puts its behavior in the place of an earlier one. -/
theorem finishKey_behaviors (map : String) {read : (SymbolContents × KeyDraft) × Bool}
    (overrides : read.1.2.definition.merge = .override) :
    Gives (finishKey keycodes map read) fun made => made.2 = true → read.2 = true ∧
      made.1.base = read.1.1.base ∧ PutsBehavior keycodes read.1.2 read.1.1.keys made.1.keys := by
  refine .ite (fun _ => .pure nofun) fun right => ?_
  refine .bind (read.1.2.moveGroup_same _ map) ?_
  rintro ⟨key, moved⟩ ⟨sameName, sameDefinition, sameConduct⟩
  refine .ite (fun _ => .pure nofun) fun _ => ?_
  refine .bind (addKey_behaviors (sameDefinition ▸ overrides) read.1.1) fun made known => ?_
  refine .pure fun _ => ⟨by simpa using right, known.1, ?_⟩
  rw [PutsBehavior, ← sameName, ← sameDefinition, ← KeyDraft.settledBehavior_of_conduct sameConduct]
  exact known.2

/-- A statement that overrides puts the behavior of its key in the place of an earlier one. -/
theorem handleKey_behaviors (modifiers : VirtualModifiers) (contents : SymbolContents)
    (header : Header) (name : KeyName) (body : List Assignment) (diagnostics : Diagnostics) :
    let scope : Scope := ⟨modifiers, keycodes⟩
    let read := (contents.handleBody scope (contents.startKey header .override name) body diagnostics).1
    let made := (contents.handleKey scope header .override name body diagnostics).1
    made.2 = true → read.2 = true ∧ made.1.base = read.1.1.base ∧ read.1.2.name = name ∧
      PutsBehavior keycodes read.1.2 contents.keys made.1.keys := by
  intro scope read made right
  obtain ⟨⟨keys, -⟩, named, moded⟩ := handleBody_same scope contents
    (contents.startKey header .override name) body diagnostics
  obtain ⟨good, base, puts⟩ := finishKey_behaviors (header.name.getD "") moded _ right
  exact ⟨good, base, named, keys ▸ puts⟩

variable {modifiers : VirtualModifiers} {contents : SymbolContents} {header : Header} {name : KeyName}

/-- Statements for one key that override, read in sections which allow the same of radio groups, put
the same behavior there if their body gives one. -/
theorem handleKey_agreeing {other : SymbolContents}
    (same : contents.base.allowNone = other.base.allowNone)
    (gives : body.any (·.givesBehavior) = true) (early late : Diagnostics) :
    let made := (contents.handleKey ⟨modifiers, keycodes⟩ header .override name body early).1
    let alone := (other.handleKey ⟨modifiers, keycodes⟩ header .override name body late).1
    made.2 = true → alone.2 = true → ∃ behavior,
      made.1.keys.map (KeyDraft.named keycodes) =
        NamedBehaviors.put keycodes (contents.keys.map (KeyDraft.named keycodes)) name behavior ∧
      alone.1.keys.map (KeyDraft.named keycodes) =
        NamedBehaviors.put keycodes (other.keys.map (KeyDraft.named keycodes)) name behavior := by
  intro made alone right rightAlone
  obtain ⟨read, -, named, behavior, given, puts⟩ :=
    handleKey_behaviors modifiers contents header name body early right
  obtain ⟨readAlone, -, namedAlone, behaviorAlone, givenAlone, putsAlone⟩ :=
    handleKey_behaviors modifiers other header name body late rightAlone
  have starts : (contents.startKey header .override name).Agrees false
      (other.startKey header .override name) := ⟨same, nofun, nofun⟩
  have agrees := (handleBody_agreeing starts ⟨modifiers, keycodes⟩ contents other body early late
    trivial).1 read readAlone
  rw [gives, Bool.or_true] at agrees
  obtain ⟨marked, markedAlone⟩ := agrees.marked rfl
  have both : behavior = behaviorAlone := by
    rw [given marked, givenAlone markedAlone]
    exact agrees.settled rfl keycodes
  rw [named] at puts
  rw [namedAlone, ← both] at putsAlone
  exact ⟨behavior, puts, putsAlone⟩

/-- After two statements for a key the keys behave as after the second one alone, if that one gives a
behavior and the first one says nothing of radio groups for later keys. -/
theorem handleKey_handleKey {other : List Assignment}
    (keeps : ∀ assigned ∈ body, assigned.allowsNone = false)
    (gives : other.any (·.givesBehavior) = true) (early middle late : Diagnostics) :
    let scope : Scope := ⟨modifiers, keycodes⟩
    let first := (contents.handleKey scope header .override name body early).1
    let both := (first.1.handleKey scope header .override name other middle).1
    let alone := (contents.handleKey scope header .override name other late).1
    first.2 = true → both.2 = true → alone.2 = true →
      both.1.keys.map (KeyDraft.named keycodes) = alone.1.keys.map (KeyDraft.named keycodes) := by
  intro scope first both alone firstRight right rightAlone
  obtain ⟨-, base, named, behavior, -, puts⟩ :=
    handleKey_behaviors modifiers contents header name body early firstRight
  have allowed : first.1.base.allowNone = contents.base.allowNone := by
    rw [base]
    exact handleBody_allowNone keeps scope contents _ early
  obtain ⟨last, made, madeAlone⟩ := handleKey_agreeing allowed gives middle late right rightAlone
  rw [made, madeAlone, puts, named, NamedBehaviors.put_put]

theorem Remarked.behaviors {old new : Vector Key 256} (remarked : Remarked keycodes old new) :
    new.map Key.behavior = old.map Key.behavior := by
  ext code inside
  obtain ⟨mods, same⟩ := (remarked code).1
  simp only [inside, getElem?_pos, Option.map_some, Option.some.injEq] at same
  simp only [Vector.getElem_map, same]

/-- Of the keys that a section puts into a keymap, their names and behaviors tell how all codes
behave. -/
theorem apply_behaviors (contents : SymbolContents) (name : Option String) (keymap : Keymap) :
    Gives (contents.apply name keymap) fun made => made.symbols.keys.map Key.behavior =
      NamedBehaviors.place keymap.keycodes (contents.keys.map (KeyDraft.named keymap.keycodes))
        (keymap.symbols.keys.map Key.behavior) := by
  refine (contents.apply_remarked name keymap).mono ?_
  rintro _ (⟨empty, rfl⟩ | ⟨keys, groupNames, rfl, remarked⟩)
  · rw [empty]
    rfl
  · rw [remarked.behaviors, KeyDraft.putAll_behaviors, List.map_map]
    congr 2
    exact funext fun key => key.prepare_named

end SymbolContents

namespace Assembly

variable {keycodes : KeycodeTable} {mode merge : MergeMode} {title : String} {name : KeyName}
  {body : List Assignment}

/-- Statements that leave no errors behind are read one after another. -/
theorem readStatements_append {γ : Type} [SectionContents γ] {read : SectionReader Id γ}
    {early late : List Statement} {draft : Draft γ} {workspace : Workspace}
    (clean : (readStatements keycodes read mode title (early ++ late) draft workspace).1.isClean = true) :
    readStatements keycodes read mode title (early ++ late) draft workspace =
      let made := readStatements keycodes read mode title early draft workspace
      readStatements keycodes read mode title late made.1 made.2 := by
  induction early generalizing draft workspace with
  | nil => rfl
  | cons statement rest ih =>
    -- The reading goes on from a draft that has not too many errors, or it would not end clean.
    have onward {next : Draft γ} {later : Workspace}
        (clean : (readOn keycodes read mode title (rest ++ late) next later).1.isClean = true) :
        readOn keycodes read mode title (rest ++ late) next later =
          let made := readOn keycodes read mode title rest next later
          readStatements keycodes read mode title late made.1 made.2 := by
      by_cases many : next.header.errors > errorLimit
      · rw [readOn, if_pos many] at clean
        exact absurd clean (Bool.eq_false_iff.mp (Draft.isClean_eq_false.mpr (Nat.zero_lt_of_lt many)))
      · simp only [readOn, if_neg many] at clean ⊢
        exact ih clean
    exact onward clean

variable {assembly : Assembly} {part : Section}

/-- A section that ends with a statement for a key and has no errors is the section without the
statement, with the key added. -/
theorem reading_key {before : List Statement}
    (clean : (reading SymbolContents assembly mode
      { part with statements := before ++ [.keySymbols merge name body] }).1.isClean = true) :
    let early := reading SymbolContents assembly mode { part with statements := before }
    let handled := early.1.contents.handleKey ⟨early.2.modifiers, assembly.keymap.keycodes⟩
      early.1.header (merge.or mode) name body early.2.diagnostics
    early.1.isClean = true ∧ handled.1.2 = true ∧
      reading SymbolContents assembly mode
        { part with statements := before ++ [.keySymbols merge name body] } =
        ({ early.1 with contents := handled.1.1 }, { early.2 with diagnostics := handled.2 }) := by
  intro early handled
  -- The statement includes nothing, so both sections are read to the same depth.
  have depth : Library.termCount { part with
      statements := before ++ [.keySymbols merge name body] } =
      Library.termCount { part with statements := before } := by
    simp only [Library.termCount, Library.total, List.foldr_append]
    rfl
  obtain ⟨read, whole⟩ : ∃ read, reading SymbolContents assembly mode
      { part with statements := before ++ [.keySymbols merge name body] } =
      readOn assembly.keymap.keycodes read mode part.name []
        (if handled.1.2 then { early.1 with contents := handled.1.1 }
          else Draft.addErrors { early.1 with contents := handled.1.1 } 1)
        { early.2 with diagnostics := handled.2 } := by
    refine ⟨readSection assembly.keymap.keycodes
      (Library.termCount { part with statements := before } + assembly.library.reach) .override, ?_⟩
    rw [reading, readMain, depth] at clean ⊢
    exact readStatements_append clean
  have last (next : Draft SymbolContents) (later : Workspace) :
      (readOn assembly.keymap.keycodes read mode part.name [] next later).1 = next := by
    dsimp only [readOn]
    split <;> rfl
  rw [whole, last] at clean
  rw [whole]
  cases right : handled.1.2 with
  | true =>
    rw [if_pos right] at clean
    refine ⟨clean, rfl, ?_⟩
    rw [if_pos rfl, readOn_clean _ _ _ clean]
    rfl
  | false => simp [right, Draft.isClean, Draft.addErrors] at clean

theorem applyPart_behaviors (compiled : (applyPart mode part addSymbols assembly).1.isSome = true) :
    (reading SymbolContents assembly mode part).1.isClean = true ∧
      (applyPart mode part addSymbols assembly).2.keymap.symbols.keys.map Key.behavior =
        NamedBehaviors.place assembly.keymap.keycodes
          ((reading SymbolContents assembly mode part).1.contents.keys.map
            (KeyDraft.named assembly.keymap.keycodes))
          (assembly.keymap.symbols.keys.map Key.behavior) := by
  have clean := clean_of_applyPart compiled
  rw [applyPart_of_clean addSymbols clean]
  exact ⟨clean, SymbolContents.apply_behaviors _ _ _ _⟩

/-- An assignment to a field of the key. -/
def keyField (field : String) (value : Expr) : Assignment :=
  ⟨.unspecified, some (.ident field), some value⟩

/-- Symbols whose statements for the key override one another. -/
def escapeOverrides (bodies : List (List Assignment)) : Section :=
  { noSymbols with statements := bodies.map (.keySymbols .override (.ofString "ESC")) }

/-- The behavior of the key after its statements are compiled. -/
def escapeBehavior (bodies : List (List Assignment)) : Option Behavior :=
  ((compilePart .override (escapeOverrides bodies) escapeOnly).2.keymap.key? 9).map (·.behavior)

end Assembly

end Xkb
