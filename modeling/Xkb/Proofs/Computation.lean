import Xkb.Section.Reading

/-! What a computation over a state can give, whatever the state it starts in. -/

namespace Xkb

/-- Whatever the state it starts in, a computation gives a value with a property. -/
def Gives {σ α : Type} (run : StateM σ α) (holds : α → Prop) : Prop :=
  ∀ state, holds (run state).1

namespace Gives

variable {σ α β : Type} {value : α} {first : StateM σ α} {next : α → StateM σ β} {holds : β → Prop}
  {step : β → α → StateM σ β} {start : β}

/-- A value that is given at once has whatever property it has. -/
theorem pure {holds : α → Prop} (known : holds value) :
    Gives (Pure.pure value : StateM σ α) holds :=
  fun _ => known

theorem bind {middle : α → Prop} (start : Gives first middle)
    (rest : ∀ value, middle value → Gives (next value) holds) :
    Gives (first >>= next) holds :=
  fun state => rest _ (start state) _

theorem after (rest : ∀ value, Gives (next value) holds) : Gives (first >>= next) holds :=
  fun _ => rest _ _

theorem mono {run : StateM σ α} {strong weak : α → Prop} (given : Gives run strong)
    (weaken : ∀ value, strong value → weak value) : Gives run weak :=
  fun state => weaken _ (given state)

theorem trivial (run : StateM σ α) : Gives run fun _ => True :=
  fun _ => True.intro

/-- Either branch of a choice has to give the property. -/
theorem ite {condition : Prop} [Decidable condition] {yes no : StateM σ α} {holds : α → Prop}
    (whenTrue : condition → Gives yes holds) (whenFalse : ¬condition → Gives no holds) :
    Gives (if condition then yes else no) holds := by
  split
  · exact whenTrue ‹_›
  · exact whenFalse ‹_›

/-- A property that every step of a fold keeps holds at its end. -/
theorem foldlM {list : List α} (begins : holds start)
    (keeps : ∀ value item, item ∈ list → holds value → Gives (step value item) holds) :
    Gives (list.foldlM step start) holds := by
  -- The value so far is generalised, since every step replaces it.
  induction list generalizing start with
  | nil => exact pure begins
  | cons item rest ih =>
    rw [List.foldlM_cons]
    refine bind (keeps start item (by simp) begins) fun value known => ?_
    exact ih known fun value item member => keeps value item (by simp [member])

/-- Where each item is turned into a known value, so is the list. -/
theorem mapM_eq {change : α → StateM σ β} {value : α → β}
    (each : ∀ item, Gives (change item) (· = value item)) (list : List α) :
    Gives (list.mapM change) (· = list.map value) := by
  induction list with
  | nil =>
    rw [List.mapM_nil]
    exact pure rfl
  | cons item rest ih =>
    rw [List.mapM_cons]
    refine bind (each item) fun head first => bind ih fun tail others => pure ?_
    rw [first, others, List.map_cons]

/-- Where each step of a fold comes to a known value, so does the fold. -/
theorem foldlM_eq {next : β → α → β}
    (each : ∀ value item, Gives (step value item) (· = next value item)) (list : List α) (start : β) :
    Gives (list.foldlM step start) (· = list.foldl next start) := by
  induction list generalizing start with
  | nil => exact pure rfl
  | cons item rest ih =>
    rw [List.foldlM_cons, List.foldl_cons]
    refine bind (each start item) fun value known => ?_
    rw [known]
    exact ih _

theorem noted {γ : Type} {wanted : Prop} [Decidable wanted] {note : StateM σ γ} {holds : α → Prop}
    (known : holds value) :
    Gives (if wanted then note >>= fun _ => Pure.pure value else Pure.pure value) holds :=
  ite (fun _ => after fun _ => pure known) fun _ => pure known

/-- What holds before the first of some steps and is carried from each step to the next holds
after the last one. -/
theorem foldlM_range {step : β → Nat → StateM σ β} {count : Nat} (holds : Nat → β → Prop)
    (begins : holds 0 start)
    (carries : ∀ done < count, ∀ value, holds done value →
      Gives (step value done) (holds (done + 1))) :
    Gives ((List.range count).foldlM step start) (holds count) := by
  induction count with
  | zero => exact pure begins
  | succ count ih =>
    rw [List.range_succ, List.foldlM_append]
    refine bind (ih fun done within => carries done (by omega)) fun value known => ?_
    rw [List.foldlM_cons]
    exact bind (carries count (by omega) value known) fun value known => pure known

end Gives

/-- From a state with a property, a computation comes to a value and a state that belong together. -/
def Leads {σ α : Type} (before : σ → Prop) (run : StateM σ α) (after : α → σ → Prop) : Prop :=
  ∀ state, before state → after (run state).1 (run state).2

namespace Leads

variable {σ α β : Type} {before : σ → Prop}

theorem pure {value : α} {after : α → σ → Prop} (ends : ∀ state, before state → after value state) :
    Leads before (Pure.pure value : StateM σ α) after :=
  ends

/-- What the first of two computations comes to is where the second one starts. -/
theorem bind {first : StateM σ α} {next : α → StateM σ β} {middle : α → σ → Prop}
    {after : β → σ → Prop} (start : Leads before first middle)
    (rest : ∀ value, Leads (middle value) (next value) after) :
    Leads before (first >>= next) after :=
  fun state begins => rest _ _ (start state begins)

theorem given {fact : Prop} {run : StateM σ α} {after : α → σ → Prop}
    (rest : fact → Leads before run after) : Leads (fun state => fact ∧ before state) run after :=
  fun state begins => rest begins.1 state begins.2

/-- Either branch of a choice has to lead there. -/
theorem ite {condition : Prop} [Decidable condition] {yes no : StateM σ α}
    {after : α → σ → Prop} (whenTrue : condition → Leads before yes after)
    (whenFalse : ¬condition → Leads before no after) :
    Leads before (if condition then yes else no) after := by
  split
  · exact whenTrue ‹_›
  · exact whenFalse ‹_›

end Leads

/-- What a computation that may fail gives, if it does not fail, has a property. -/
def Yields {ε α : Type} (outcome : Except ε α) (holds : α → Prop) : Prop :=
  ∀ value, outcome = .ok value → holds value

namespace Yields

variable {ε α β : Type}

/-- A value that is given at once has whatever property it has. -/
theorem pure {value : α} {holds : α → Prop} (known : holds value) :
    Yields (Pure.pure value : Except ε α) holds := by
  intro given same
  cases same
  exact known

theorem throw (cause : ε) (holds : α → Prop) :
    Yields (MonadExcept.throw cause : Except ε α) holds := by
  intro given same
  cases same

variable {first : Except ε α} {next : α → Except ε β} {holds : β → Prop}

/-- What the first of two computations gives is all that the second may rely on. -/
theorem bind {middle : α → Prop} (start : Yields first middle)
    (rest : ∀ value, middle value → Yields (next value) holds) :
    Yields (first >>= next) holds := by
  intro given same
  cases reached : first with
  | error cause =>
    rw [reached] at same
    cases same
  | ok value =>
    rw [reached] at same
    exact rest value (start value reached) given same

theorem after (rest : ∀ value, Yields (next value) holds) : Yields (first >>= next) holds :=
  bind (fun _ _ => True.intro) fun value _ => rest value

/-- A value that is made from what a computation gives. -/
theorem made {first : Except ε α} {make : α → β} {holds : β → Prop}
    (given : Yields first fun value => holds (make value)) :
    Yields (first >>= fun value => Pure.pure (make value)) holds :=
  bind given fun _ known => pure known

theorem throw_bind (cause : ε) (next : α → Except ε β) (holds : β → Prop) :
    Yields ((MonadExcept.throw cause : Except ε α) >>= next) holds := by
  intro given same
  cases same

/-- Either branch of a choice has to give the property. -/
theorem ite {condition : Prop} [Decidable condition] {yes no : Except ε α} {holds : α → Prop}
    (whenTrue : condition → Yields yes holds) (whenFalse : ¬condition → Yields no holds) :
    Yields (if condition then yes else no) holds := by
  split
  · exact whenTrue ‹_›
  · exact whenFalse ‹_›

/-- A property that every step of a fold keeps holds at its end. -/
theorem foldlM {step : β → α → Except ε β} {list : List α} {start : β} (begins : holds start)
    (keeps : ∀ value item, holds value → Yields (step value item) holds) :
    Yields (list.foldlM step start) holds := by
  induction list generalizing start with
  | nil => exact pure begins
  | cons item rest ih =>
    rw [List.foldlM_cons]
    exact bind (keeps start item begins) fun value known => ih known

end Yields

end Xkb
