import Xkb.Proofs.Computation

/-! Two computations that go alike: from states that belong together they come to values and states
that belong together. -/

namespace Xkb

/-- From states that belong together, two computations come to values and states that belong
together, maybe in another way. -/
def Coupled {σ τ α β : Type} (before : σ → τ → Prop) (left : StateM σ α) (right : StateM τ β)
    (after : α → β → σ → τ → Prop) : Prop :=
  ∀ first second, before first second →
    after (left first).1 (right second).1 (left first).2 (right second).2

namespace Coupled

variable {σ τ α β γ δ : Type} {before : σ → τ → Prop}

theorem pure {value : α} {other : β} {after : α → β → σ → τ → Prop}
    (ends : ∀ first second, before first second → after value other first second) :
    Coupled before (Pure.pure value) (Pure.pure other) after :=
  ends

variable {left : StateM σ α} {right : StateM τ β} {after : γ → δ → σ → τ → Prop}

/-- What the first computations come to is where the next ones start. -/
theorem bind {leftNext : α → StateM σ γ} {rightNext : β → StateM τ δ}
    {middle : α → β → σ → τ → Prop} (start : Coupled before left right middle)
    (rest : ∀ value other, Coupled (middle value other) (leftNext value) (rightNext other) after) :
    Coupled before (left >>= leftNext) (right >>= rightNext) after :=
  fun first second begins => rest _ _ _ _ (start first second begins)

/-- Facts that are known at the start may be used throughout. -/
theorem assume {fact : Prop} {after : α → β → σ → τ → Prop}
    (implies : ∀ first second, before first second → fact)
    (rest : fact → Coupled before left right after) : Coupled before left right after :=
  fun first second begins => rest (implies first second begins) first second begins

/-- Looking at the states. -/
theorem get {leftNext : σ → StateM σ γ} {rightNext : τ → StateM τ δ}
    (rest : ∀ first second, before first second →
      Coupled before (leftNext first) (rightNext second) after) :
    Coupled before (MonadState.get >>= leftNext) (MonadState.get >>= rightNext) after :=
  fun first second begins => rest first second begins first second begins

/-- Two computations that each lead somewhere, whatever the other one does. -/
theorem apart {leftBefore : σ → Prop} {rightBefore : τ → Prop} {leftAfter : α → σ → Prop}
    {rightAfter : β → τ → Prop} (leads : Leads leftBefore left leftAfter)
    (otherLeads : Leads rightBefore right rightAfter)
    (begins : ∀ first second, before first second → leftBefore first ∧ rightBefore second) :
    Coupled before left right fun value other first second =>
      leftAfter value first ∧ rightAfter other second :=
  fun first second known => ⟨leads first (begins first second known).1,
    otherLeads second (begins first second known).2⟩

/-- Less may be said of where the computations come to. -/
theorem mono {strong weak : α → β → σ → τ → Prop} (known : Coupled before left right strong)
    (weaken : ∀ value other first second, strong value other first second →
      weak value other first second) : Coupled before left right weak :=
  fun first second begins => weaken _ _ _ _ (known first second begins)

theorem modify {update : σ → σ} {otherUpdate : τ → τ} (after : σ → τ → Prop)
    (ends : ∀ first second, before first second → after (update first) (otherUpdate second)) :
    Coupled before (modify update) (modify otherUpdate) fun _ _ => after :=
  ends

end Coupled

/-- From states that belong together, two computations come to values that belong together and to
states that still do. -/
def Alike {σ τ α β : Type} (states : σ → τ → Prop) (left : StateM σ α) (right : StateM τ β)
    (values : α → β → Prop) : Prop :=
  Coupled states left right fun value other first second =>
    values value other ∧ states first second

namespace Alike

variable {σ τ α β γ δ : Type} {states : σ → τ → Prop}

theorem pure {value : α} {other : β} {values : α → β → Prop} (known : values value other) :
    Alike states (Pure.pure value) (Pure.pure other) values :=
  fun _ _ begins => ⟨known, begins⟩

variable {leftNext : α → StateM σ γ} {rightNext : β → StateM τ δ}

/-- What the first computations come to is all that the next ones may rely on. -/
theorem bind {left : StateM σ α} {right : StateM τ β} {middle : α → β → Prop}
    {values : γ → δ → Prop} (start : Alike states left right middle)
    (rest : ∀ value other, middle value other →
      Alike states (leftNext value) (rightNext other) values) :
    Alike states (left >>= leftNext) (right >>= rightNext) values := by
  intro first second begins
  obtain ⟨known, ends⟩ := start first second begins
  exact rest _ _ known _ _ ends

variable {step : γ → α → StateM σ γ} {values : γ → δ → Prop} {left : StateM σ α}
  {right : StateM τ β} {list : List α}

/-- The value of the second computation is told from that of the first. -/
theorem bindTold {change : α → β}
    (start : Alike states left right fun value other => other = change value)
    (rest : ∀ value, Alike states (leftNext value) (rightNext (change value)) values) :
    Alike states (left >>= leftNext) (right >>= rightNext) values := by
  refine bind start ?_
  intro value other told
  subst told
  exact rest value

/-- Both computations come to the same value. -/
theorem bindSame {right : StateM τ α} {rightNext : α → StateM τ δ}
    (start : Alike states left right Eq)
    (rest : ∀ value, Alike states (leftNext value) (rightNext value) values) :
    Alike states (left >>= leftNext) (right >>= rightNext) values := by
  refine bind start ?_
  intro value other same
  subst same
  exact rest value

/-- Less may be said of the values. -/
theorem mono {strong weak : α → β → Prop} (known : Alike states left right strong)
    (weaken : ∀ value other, strong value other → weak value other) :
    Alike states left right weak :=
  fun first second begins =>
    ⟨weaken _ _ (known first second begins).1, (known first second begins).2⟩

/-- A property of all values of the first computation may be added to what is known of both. -/
theorem gives {values : α → β → Prop} {holds : α → Prop} (known : Alike states left right values)
    (given : Gives left holds) :
    Alike states left right fun value other => values value other ∧ holds value :=
  fun first second begins =>
    ⟨⟨(known first second begins).1, given first⟩, (known first second begins).2⟩

/-- A property of all values of the second computation may be added to what is known of both. -/
theorem otherGives {values : α → β → Prop} {holds : β → Prop}
    (known : Alike states left right values) (given : Gives right holds) :
    Alike states left right fun value other => values value other ∧ holds other :=
  fun first second begins =>
    ⟨⟨(known first second begins).1, given second⟩, (known first second begins).2⟩

/-- The same choice on both sides. -/
theorem ite {condition : Prop} [Decidable condition] {yes no : StateM σ α}
    {otherYes otherNo : StateM τ β} {values : α → β → Prop}
    (whenTrue : condition → Alike states yes otherYes values)
    (whenFalse : ¬condition → Alike states no otherNo values) :
    Alike states (if condition then yes else no) (if condition then otherYes else otherNo)
      values := by
  split
  · exact whenTrue ‹_›
  · exact whenFalse ‹_›

/-- Folds over one list keep values together that every step keeps together. -/
theorem foldlM {otherStep : δ → α → StateM τ δ} {start : γ} {other : δ}
    (begins : values start other)
    (keeps : ∀ item ∈ list, ∀ value other, values value other →
      Alike states (step value item) (otherStep other item) values) :
    Alike states (list.foldlM step start) (list.foldlM otherStep other) values := by
  -- Every step replaces the values so far, so these are generalised.
  induction list generalizing start other with
  | nil => exact pure begins
  | cons item rest ih =>
    rw [List.foldlM_cons, List.foldlM_cons]
    refine bind (keeps item (by simp) start other begins) fun value other known => ?_
    exact ih known fun item member => keeps item (by simp [member])

/-- The same values are made from the items of a list if the same one is made from each. -/
theorem mapM {change : α → StateM σ β} {alter : α → StateM τ β}
    (each : ∀ item ∈ list, Alike states (change item) (alter item) Eq) :
    Alike states (list.mapM change) (list.mapM alter) Eq := by
  induction list with
  | nil => exact pure rfl
  | cons item rest ih =>
    rw [List.mapM_cons, List.mapM_cons]
    refine bind (each item (by simp)) fun head _ sameHead => ?_
    refine bind (ih fun item member => each item (by simp [member])) fun tail _ sameTail => ?_
    exact pure (by rw [sameHead, sameTail])

theorem refl (run : StateM σ α) : Alike Eq run run Eq := by
  intro state other same
  subst same
  exact ⟨rfl, rfl⟩

end Alike

/-- Reports at levels that belong together, whatever was reported so far. -/
def AtLevels (levels : Nat → Nat → Prop) (left right : Diagnostics) : Prop :=
  levels left.level right.level

namespace AtLevels

variable {levels : Nat → Nat → Prop} {α β : Type} {values : α → β → Prop}

/-- The level may be looked at. -/
theorem level {left : Nat → Report α} {right : Nat → Report β}
    (rest : ∀ level other, levels level other →
      Alike (AtLevels levels) (left level) (right other) values) :
    Alike (AtLevels levels) (Report.level >>= left) (Report.level >>= right) values :=
  fun first second begins => rest first.level second.level begins first second begins

variable {actions otherActions : List String} {message otherMessage : String}
  {left : Unit → Report α} {right : Unit → Report β}

/-- An error on both sides. -/
theorem error (rest : Alike (AtLevels levels) (left ()) (right ()) values) :
    Alike (AtLevels levels) (Report.error message actions >>= left)
      (Report.error otherMessage otherActions >>= right) values :=
  fun _ _ begins => rest _ _ begins

/-- A warning on both sides. -/
theorem warn (rest : Alike (AtLevels levels) (left ()) (right ()) values) :
    Alike (AtLevels levels) (Report.warn message actions >>= left)
      (Report.warn otherMessage otherActions >>= right) values :=
  fun _ _ begins => rest _ _ begins

/-- A warning that one side may give without the other. -/
theorem warnIf {condition other : Prop} [Decidable condition] [Decidable other] {left : Report α}
    {right : Report β} (rest : Alike (AtLevels levels) left right values) :
    Alike (AtLevels levels)
      (if condition then Report.warn message actions >>= fun _ => left else left)
      (if other then Report.warn otherMessage otherActions >>= fun _ => right else right)
      values := by
  intro first second begins
  split <;> split <;> exact rest _ _ begins

end AtLevels

end Xkb
