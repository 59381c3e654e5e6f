import Xkb.Proofs.Alike

/-! Computations that account for their failures: whenever their value is a failure, a warning or
an error is on record. -/

namespace Xkb

/-- Computations that keep a state steady, never take back what was told, and tell something
whenever they fail. -/
def Accounts {σ α : Type} (steady told : σ → Prop) (run : StateM σ α) (fails : α → Prop) : Prop :=
  ∀ state, steady state →
    steady (run state).2 ∧ (told state ∨ fails (run state).1 → told (run state).2)

namespace Accounts

variable {σ α β : Type} {steady told : σ → Prop}

theorem pure {value : α} {fails : α → Prop} (fine : ¬fails value) :
    Accounts steady told (Pure.pure value) fails :=
  fun _ begins => ⟨begins, fun known => known.resolve_right fine⟩

variable {fails : β → Prop} {first run : StateM σ α} {next : α → StateM σ β} {bad : α → Prop}
  {step : β → α → StateM σ β} {list : List α} {start : β}

/-- The second of two computations tells of those failures that the first one leaves to it, where
something may be known of the value of the first. -/
theorem bindGiven (holds : α → Prop) (start : Accounts steady told first bad)
    (gives : ∀ state, steady state → holds (first state).1)
    (rest : ∀ value, holds value →
      Accounts steady told (next value) fun result => fails result ∧ ¬bad value) :
    Accounts steady told (first >>= next) fails := by
  intro state begins
  obtain ⟨middle, known⟩ := start state begins
  obtain ⟨ends, later⟩ := rest (first state).1 (gives state begins) (first state).2 middle
  refine ⟨ends, fun either => ?_⟩
  -- Where the first one failed it has told, and what is told is not taken back.
  by_cases failed : bad (first state).1
  · exact later (.inl (known (.inr failed)))
  · rcases either with before | fails
    · exact later (.inl (known (.inl before)))
    · exact later (.inr ⟨fails, failed⟩)

/-- The second of two computations tells of those failures that the first one leaves to it. -/
theorem bind (start : Accounts steady told first bad)
    (rest : ∀ value, Accounts steady told (next value) fun result => fails result ∧ ¬bad value) :
    Accounts steady told (first >>= next) fails :=
  bindGiven (fun _ => True) start (fun _ _ => True.intro) fun value _ => rest value

/-- Fewer values may count as failures. -/
theorem mono {more fewer : α → Prop} (known : Accounts steady told run more)
    (less : ∀ value, fewer value → more value) : Accounts steady told run fewer :=
  fun state begins =>
    ⟨(known state begins).1, fun either => (known state begins).2 (either.imp_right (less _))⟩

/-- A computation that accounts for failures also goes where none is looked for. -/
theorem quiet {fails : α → Prop} (known : Accounts steady told run fails) :
    Accounts steady told run fun _ => False :=
  known.mono fun _ => False.elim

/-- What cannot fail may come before anything else. -/
theorem after (start : Accounts steady told first bad)
    (rest : ∀ value, Accounts steady told (next value) fails) :
    Accounts steady told (first >>= next) fails :=
  bind start fun value => (rest value).mono fun _ known => known.1

/-- Either branch of a choice has to account for its failures. -/
theorem ite {condition : Prop} [Decidable condition] {yes no : StateM σ α} {fails : α → Prop}
    (whenTrue : condition → Accounts steady told yes fails)
    (whenFalse : ¬condition → Accounts steady told no fails) :
    Accounts steady told (if condition then yes else no) fails := by
  split
  · exact whenTrue ‹_›
  · exact whenFalse ‹_›

theorem get {next : σ → StateM σ β}
    (rest : ∀ state, steady state → Accounts steady told (next state) fails) :
    Accounts steady told (MonadState.get >>= next) fails :=
  fun state begins => rest state begins state begins

/-- Changing the state. -/
theorem change {update : σ → σ} {next : PUnit → StateM σ β}
    (keeps : ∀ state, steady state → steady (update state))
    (stays : ∀ state, told state → told (update state))
    (rest : Accounts steady told (next ⟨⟩) fails) :
    Accounts steady told (modify update >>= next) fails :=
  fun state begins =>
    ⟨(rest (update state) (keeps state begins)).1, fun either =>
      (rest (update state) (keeps state begins)).2 (either.imp_left (stays state))⟩

/-- A fold that starts without a failure fails where one of its steps does. -/
theorem foldlM (fine : ¬fails start)
    (steps : ∀ value, ∀ item ∈ list,
      Accounts steady told (step value item) fun next => fails next ∧ ¬fails value) :
    Accounts steady told (list.foldlM step start) fails := by
  -- The fold may go on behind a failure, which then was told of.
  have newly : Accounts steady told (list.foldlM step start)
      fun made => fails made ∧ ¬fails start := by
    clear fine
    induction list generalizing start with
    | nil => exact pure fun known => known.2 known.1
    | cons item rest ih =>
      rw [List.foldlM_cons]
      refine bind (steps start item (by simp)) fun value => ?_
      refine (ih fun value item member => steps value item (by simp [member])).mono ?_
      rintro made ⟨⟨failed, fine⟩, before⟩
      exact ⟨failed, fun still => before ⟨still, fine⟩⟩
  exact newly.mono fun _ failed => ⟨failed, fine⟩

/-- A fold whose steps cannot fail. -/
theorem foldQuiet
    (steps : ∀ value, ∀ item ∈ list, Accounts steady told (step value item) fun _ => False) :
    Accounts steady told (list.foldlM step start) fun _ => False :=
  foldlM id fun value item member => (steps value item member).mono fun _ known => known.1

/-- Values that are made one after another without failure. -/
theorem mapM {change : α → StateM σ β}
    (each : ∀ item ∈ list, Accounts steady told (change item) fun _ => False) :
    Accounts steady told (list.mapM change) fun _ => False := by
  induction list with
  | nil =>
    rw [List.mapM_nil]
    exact pure id
  | cons item rest ih =>
    rw [List.mapM_cons]
    refine after (each item (by simp)) fun _ => ?_
    refine after (ih fun item member => each item (by simp [member])) fun _ => ?_
    exact pure id

end Accounts

/-- A warning or an error is on record. -/
def Diagnostics.Complains (diagnostics : Diagnostics) : Prop :=
  ∃ record ∈ diagnostics.records, record.severity ≠ .info

/-- A report at a level accounts for its failures by a warning or an error. -/
abbrev Answers {α : Type} (level : Nat) (run : Report α) (fails : α → Prop) : Prop :=
  Accounts (·.level = level) Diagnostics.Complains run fails

/-- A report at a level that cannot fail. -/
abbrev Goes {α : Type} (level : Nat) (run : Report α) : Prop :=
  Answers level run fun _ => False

namespace Answers

variable {α : Type} {level : Nat} {fails : α → Prop}

theorem push {diagnostic : Diagnostic} {fails : Unit → Prop}
    (grave : ∀ value, fails value → diagnostic.severity ≠ .info) :
    Answers level (modify (·.push diagnostic) : Report Unit) fails := by
  intro diagnostics begins
  refine ⟨begins, ?_⟩
  rintro (⟨record, member, known⟩ | failed)
  · exact ⟨record, List.mem_append_left _ member, known⟩
  · exact ⟨diagnostic, List.mem_append_right _ (by simp), grave () failed⟩

theorem error (message : String) (actions : List String) (fails : Unit → Prop) :
    Answers level (Report.error message actions) fails :=
  push fun _ _ => nofun

theorem warn (message : String) (actions : List String) (fails : Unit → Prop) :
    Answers level (Report.warn message actions) fails :=
  push fun _ _ => nofun

theorem info (message : String) : Goes level (Report.info message) :=
  push fun _ => False.elim

variable {actions : List String} {message : String} {rest : Unit → Report α}

theorem afterError (goes : Goes level (rest ())) :
    Answers level (Report.error message actions >>= rest) fails :=
  .bind (error message actions fun _ => True) fun _ =>
    goes.mono fun _ known => known.2 True.intro

theorem afterWarn (goes : Goes level (rest ())) :
    Answers level (Report.warn message actions >>= rest) fails :=
  .bind (warn message actions fun _ => True) fun _ =>
    goes.mono fun _ known => known.2 True.intro

/-- An error and a value, whatever that is. -/
theorem refuse {value : α} : Answers level (do Report.error message actions; return value) fails :=
  afterError (.pure id)

/-- A warning that is given or not. -/
theorem warnIf {condition : Prop} [Decidable condition] {rest : Report α}
    (answers : Answers level rest fails) :
    Answers level (if condition then Report.warn message actions >>= fun _ => rest else rest)
      fails :=
  .ite (fun _ => afterWarn answers.quiet) fun _ => answers

theorem atLevel {rest : Nat → Report α} (answers : Answers level (rest level) fails) :
    Answers level (Report.level >>= rest) fails := by
  rintro diagnostics rfl
  exact answers diagnostics rfl

/-- Noticing something adds no record. -/
theorem firstTime (key : String) : Goes level (Report.firstTime key) := by
  intro diagnostics begins
  have same : (Report.firstTime key diagnostics).2.level = diagnostics.level
      ∧ (Report.firstTime key diagnostics).2.records = diagnostics.records := by
    change (ite _ (pure false : Report Bool) _ diagnostics).2.level = _
      ∧ (ite _ (pure false : Report Bool) _ diagnostics).2.records = _
    split <;> exact ⟨rfl, rfl⟩
  refine ⟨same.1.trans begins, fun known => ?_⟩
  rw [Diagnostics.Complains, same.2]
  exact known.resolve_right id

end Answers

/-- Reports that cannot fail leave the level alone, so they go alike where what they give belongs
together. -/
theorem Goes.alike {α β : Type} {levels : Nat → Nat → Prop} {left : Report α} {right : Report β}
    {values : α → β → Prop} (goes : ∀ level, Goes level left) (others : ∀ level, Goes level right)
    (known : ∀ first second, values (left first).1 (right second).1) :
    Alike (AtLevels levels) left right values := by
  intro first second begins
  refine ⟨known first second, ?_⟩
  rw [AtLevels, (goes _ first rfl).1, (others _ second rfl).1]
  exact begins

/-- Two reports at levels that belong together go alike, and the first one accounts for its failures
by a warning or an error. -/
def AnswersAlike {α β : Type} (levels : Nat → Nat → Prop) (left : Report α) (right : Report β)
    (values : α → β → Prop) (fails : α → Prop) : Prop :=
  ∀ first second, AtLevels levels first second →
    (values (left first).1 (right second).1 ∧ AtLevels levels (left first).2 (right second).2) ∧
      (first.Complains ∨ fails (left first).1 → (left first).2.Complains)

namespace AnswersAlike

variable {α β γ δ : Type} {levels : Nat → Nat → Prop} {left : Report α} {right : Report β}
  {values : α → β → Prop} {fails : α → Prop}

theorem alike (known : AnswersAlike levels left right values fails) :
    Alike (AtLevels levels) left right values :=
  fun first second begins => (known first second begins).1

/-- Of two reports at one level, the first one answers. -/
theorem answers {level : Nat}
    (known : AnswersAlike (fun one other => one = level ∧ other = level) left right values fails) :
    Answers level left fails := by
  intro diagnostics begins
  obtain ⟨⟨-, ends⟩, told⟩ := known diagnostics diagnostics ⟨begins, begins⟩
  exact ⟨ends.1, told⟩

theorem of_answers (alike : Alike (AtLevels levels) left right values)
    (answers : ∀ level, Answers level left fails) : AnswersAlike levels left right values fails :=
  fun first second begins =>
    ⟨alike first second begins, (answers first.level first rfl).2⟩

variable {value : α} {leftNext : α → Report γ} {rightNext : β → Report δ} {results : γ → δ → Prop}
  {bad : α → Prop} {step : γ → α → Report γ} {otherStep : δ → α → Report δ} {list : List α}
  {start : γ} {other : δ}

theorem pure {other : β} (known : values value other) (fine : ¬fails value) :
    AnswersAlike levels (Pure.pure value) (Pure.pure other) values fails :=
  of_answers (.pure known) fun _ => .pure fine

/-- More may be said of the values, and fewer of them may count as failures. -/
theorem mono {strong weak : α → β → Prop} {more fewer : α → Prop}
    (known : AnswersAlike levels left right strong more)
    (weaken : ∀ value other, strong value other → weak value other)
    (less : ∀ value, fewer value → more value) :
    AnswersAlike levels left right weak fewer := by
  intro first second begins
  obtain ⟨⟨values, ends⟩, told⟩ := known first second begins
  exact ⟨⟨weaken _ _ values, ends⟩, fun either => told (either.imp_right (less _))⟩

theorem less {more : α → Prop} (known : AnswersAlike levels left right values more)
    (less : ∀ value, fails value → more value) : AnswersAlike levels left right values fails :=
  known.mono (fun _ _ => id) less

theorem restrict {only : α → Prop} (known : AnswersAlike levels left right values fails) :
    AnswersAlike levels left right values fun value => fails value ∧ only value :=
  known.less fun _ failed => failed.1

/-- The second reports tell of those failures that the first ones leave to them. -/
theorem bind {fails : γ → Prop} (start : AnswersAlike levels left right values bad)
    (rest : ∀ value other, values value other →
      AnswersAlike levels (leftNext value) (rightNext other) results
        fun result => fails result ∧ ¬bad value) :
    AnswersAlike levels (left >>= leftNext) (right >>= rightNext) results fails := by
  intro first second begins
  obtain ⟨⟨known, middle⟩, told⟩ := start first second begins
  obtain ⟨ends, later⟩ := rest _ _ known _ _ middle
  refine ⟨ends, fun either => later ?_⟩
  -- Where the first one failed it has told, and what is told is not taken back.
  by_cases failed : bad (left first).1
  · exact .inl (told (.inr failed))
  · exact either.imp (fun before => told (.inl before)) fun fails => ⟨fails, failed⟩

/-- The value of the second report is told from that of the first. -/
theorem bindTold {change : α → β} {fails : γ → Prop}
    (start : AnswersAlike levels left right (fun value other => other = change value) bad)
    (rest : ∀ value, AnswersAlike levels (leftNext value) (rightNext (change value)) results
      fun result => fails result ∧ ¬bad value) :
    AnswersAlike levels (left >>= leftNext) (right >>= rightNext) results fails := by
  refine bind start ?_
  intro value other told
  subst told
  exact rest value

/-- What cannot fail may come before anything else. -/
theorem afterTold {change : α → β} {fails : γ → Prop}
    (start : AnswersAlike levels left right (fun value other => other = change value)
      fun _ => False)
    (rest : ∀ value, AnswersAlike levels (leftNext value) (rightNext (change value)) results fails) :
    AnswersAlike levels (left >>= leftNext) (right >>= rightNext) results fails :=
  bindTold start fun value => (rest value).restrict

/-- Both reports come to the same value. -/
theorem bindSame {right : Report α} {rightNext : α → Report δ} {fails : γ → Prop}
    (start : AnswersAlike levels left right Eq bad)
    (rest : ∀ value, AnswersAlike levels (leftNext value) (rightNext value) results
      fun result => fails result ∧ ¬bad value) :
    AnswersAlike levels (left >>= leftNext) (right >>= rightNext) results fails := by
  refine bind start ?_
  intro value other same
  subst same
  exact rest value

/-- The same choice on both sides. -/
theorem ite {condition : Prop} [Decidable condition] {yes no : Report α} {otherYes otherNo : Report β}
    (whenTrue : condition → AnswersAlike levels yes otherYes values fails)
    (whenFalse : ¬condition → AnswersAlike levels no otherNo values fails) :
    AnswersAlike levels (if condition then yes else no) (if condition then otherYes else otherNo)
      values fails := by
  split
  · exact whenTrue ‹_›
  · exact whenFalse ‹_›

/-- Folds over one list keep values together that every step keeps together, and fail where one of
the steps does. -/
theorem foldlM {fails : γ → Prop} (fine : ¬fails start) (begins : results start other)
    (keeps : ∀ item ∈ list, ∀ value other, results value other →
      AnswersAlike levels (step value item) (otherStep other item) results
        fun next => fails next ∧ ¬fails value) :
    AnswersAlike levels (list.foldlM step start) (list.foldlM otherStep other) results fails := by
  -- The fold may go on behind a failure, which then was told of.
  have newly : AnswersAlike levels (list.foldlM step start) (list.foldlM otherStep other) results
      fun made => fails made ∧ ¬fails start := by
    clear fine
    induction list generalizing start other with
    | nil => exact pure begins fun known => known.2 known.1
    | cons item rest ih =>
      rw [List.foldlM_cons, List.foldlM_cons]
      refine bind (keeps item (by simp) start other begins) fun value other known => ?_
      refine (ih known fun item member => keeps item (by simp [member])).less ?_
      rintro made ⟨⟨failed, fine⟩, before⟩
      exact ⟨failed, fun still => before ⟨still, fine⟩⟩
  exact newly.less fun _ failed => ⟨failed, fine⟩

/-- Folds over one list, where the second value is told from the first all along. -/
theorem foldTold {fails : γ → Prop} {change : γ → δ} (fine : ¬fails start)
    (begins : other = change start)
    (keeps : ∀ item ∈ list, ∀ value, AnswersAlike levels (step value item)
      (otherStep (change value) item) (fun value other => other = change value)
      fun next => fails next ∧ ¬fails value) :
    AnswersAlike levels (list.foldlM step start) (list.foldlM otherStep other)
      (fun value other => other = change value) fails := by
  refine foldlM fine begins ?_
  intro item member value other told
  subst told
  exact keeps item member value

/-- Folds over a list and over its image that cannot fail, where the second value is told from the
first all along. -/
theorem foldQuiet_map {otherStep : δ → β → Report δ} {alter : α → β} {change : γ → δ}
    (begins : other = change start)
    (keeps : ∀ item ∈ list, ∀ value, AnswersAlike levels (step value item)
      (otherStep (change value) (alter item)) (fun value other => other = change value)
      fun _ => False) :
    AnswersAlike levels (list.foldlM step start) ((list.map alter).foldlM otherStep other)
      (fun value other => other = change value) fun _ => False := by
  rw [List.foldlM_map]
  exact foldTold id begins fun item member value => (keeps item member value).restrict

/-- The same values are made from the items of a list if the same one is made from each. -/
theorem mapM {change alter : α → Report γ}
    (each : ∀ item ∈ list, AnswersAlike levels (change item) (alter item) Eq fun _ => False) :
    AnswersAlike levels (list.mapM change) (list.mapM alter) Eq fun _ => False := by
  induction list with
  | nil => exact pure rfl id
  | cons item rest ih =>
    rw [List.mapM_cons, List.mapM_cons]
    refine bindSame (each item (by simp)) fun head => ?_
    refine bindSame (ih fun item member => each item (by simp [member])) fun tail => ?_
    exact pure rfl (by simp)

/-- The level may be looked at. -/
theorem level {left : Nat → Report α} {right : Nat → Report β}
    (rest : ∀ level other, levels level other →
      AnswersAlike levels (left level) (right other) values fails) :
    AnswersAlike levels (Report.level >>= left) (Report.level >>= right) values fails :=
  fun first second begins => rest first.level second.level begins first second begins

variable {actions otherActions : List String} {message otherMessage : String}

/-- An error on both sides, behind which nothing has to be told. -/
theorem error {left : Unit → Report α} {right : Unit → Report β}
    (rest : AnswersAlike levels (left ()) (right ()) values fun _ => False) :
    AnswersAlike levels (Report.error message actions >>= left)
      (Report.error otherMessage otherActions >>= right) values fails := by
  refine bindSame (of_answers (AtLevels.error (.pure rfl)) fun _ =>
    .error message actions fun _ => True) fun _ => ?_
  exact rest.less fun _ known => known.2 True.intro

/-- A warning on both sides, behind which nothing has to be told. -/
theorem warn {left : Unit → Report α} {right : Unit → Report β}
    (rest : AnswersAlike levels (left ()) (right ()) values fun _ => False) :
    AnswersAlike levels (Report.warn message actions >>= left)
      (Report.warn otherMessage otherActions >>= right) values fails := by
  refine bindSame (of_answers (AtLevels.warn (.pure rfl)) fun _ =>
    .warn message actions fun _ => True) fun _ => ?_
  exact rest.less fun _ known => known.2 True.intro

/-- An error and a value on both sides. -/
theorem refuse {other : β} (known : values value other) :
    AnswersAlike levels (do Report.error message actions; return value)
      (do Report.error otherMessage otherActions; return other) values fails :=
  error (pure known id)

/-- A warning that one side may give without the other. Where the first one gives it, nothing else
has to be told. -/
theorem warnIf {condition other : Prop} [Decidable condition] [Decidable other]
    (rest : AnswersAlike levels left right values fun value => fails value ∧ ¬condition) :
    AnswersAlike levels
      (if condition then Report.warn message actions >>= fun _ => left else left)
      (if other then Report.warn otherMessage otherActions >>= fun _ => right else right)
      values fails := by
  intro first second begins
  refine ⟨AtLevels.warnIf rest.alike first second begins, ?_⟩
  split
  · -- The warning itself is on record, and the rest does not take it back.
    have warned := (Answers.warn message actions fun _ => True) first rfl
    have later := rest (Report.warn message actions first).2 second begins
    exact fun _ => later.2 (.inl (warned.2 (.inr True.intro)))
  · rename_i quiet
    exact fun either => (rest first second begins).2 (either.imp_right (⟨·, quiet⟩))

end AnswersAlike

end Xkb
