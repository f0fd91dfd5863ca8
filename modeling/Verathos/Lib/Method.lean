import Mathlib.Tactic

/-!
# Methods of mutable objects

A method reads and writes the fields of an object, and returns or raises. What it wrote before it
raised stays written, which is what the monad `EStateM` does.

* `Returns method s a s'` and `Raises method s e s'` say how a call on an object in state `s` ends.
  Each way of building a method has a rule for both, and the rules are simp lemmas: a call is taken
  apart from the left.
* `fixField`: the first call fixes a field, and a later call with another value is refused.
* `within`: a call of a method of a field.
* `Atomic method s`: a call that raises leaves the object as it was. Checks are atomic, a sequence
  of a reading method and an atomic one is atomic (`Atomic.bind`), and so is a method that always
  returns.
-/

namespace Method

variable {ε σ α β : Type}

/-- A call in state `s` returns `a` and leaves `s'`. -/
def Returns (method : EStateM ε σ α) (s : σ) (a : α) (s' : σ) : Prop := method s = .ok a s'

/-- A call in state `s` raises `e` and leaves `s'`. -/
def Raises (method : EStateM ε σ α) (s : σ) (e : ε) (s' : σ) : Prop := method s = .error e s'

theorem returns_or_raises (method : EStateM ε σ α) (s : σ) :
    (∃ a s', Returns method s a s') ∨ ∃ e s', Raises method s e s' := by
  unfold Returns Raises
  cases method s with
  | ok a s' => exact .inl ⟨a, s', rfl⟩
  | error e s' => exact .inr ⟨e, s', rfl⟩

/-- The object after a call, however the call ends. -/
def after (method : EStateM ε σ α) (s : σ) : σ :=
  match method s with
  | .ok _ s' => s'
  | .error _ s' => s'

variable {method : EStateM ε σ α} {s s' : σ}

theorem after_of_returns {a : α} (h : Returns method s a s') :
    after method s = s' := by
  unfold Returns at h
  rw [after, h]

theorem after_of_raises {e : ε} (h : Raises method s e s') :
    after method s = s' := by
  unfold Raises at h
  rw [after, h]

/-- Whether a call returns. -/
def succeeds (method : EStateM ε σ α) (s : σ) : Bool :=
  match method s with
  | .ok _ _ => true
  | .error _ _ => false

theorem succeeds_iff :
    succeeds method s ↔ ∃ a s', Returns method s a s' := by
  unfold succeeds Returns
  cases method s <;> simp

theorem not_succeeds_iff :
    succeeds method s = false ↔ ∃ e s', Raises method s e s' := by
  unfold succeeds Raises
  cases method s <;> simp

/-! ## Ways to build methods -/

/-- `if condition: raise error`. -/
def check (condition : Prop) [Decidable condition] (error : ε) : EStateM ε σ Unit :=
  if condition then throw error else pure ()

/-- A call of a function that does not touch the object. -/
def call (result : Except ε α) : EStateM ε σ α :=
  match result with
  | .ok a => pure a
  | .error e => throw e

@[simp]
theorem call_ok {a : α} : (call (.ok a) : EStateM ε σ α) = pure a := rfl

/-! ## How calls end -/

variable {s s' : σ} {a b : α} {e e' : ε}

@[simp]
theorem returns_pure : Returns (pure a : EStateM ε σ α) s b s' ↔ a = b ∧ s = s' := by
  change EStateM.Result.ok a s = .ok b s' ↔ _
  rw [EStateM.Result.ok.injEq]

@[simp]
theorem raises_pure : ¬ Raises (pure a : EStateM ε σ α) s e s' := by
  intro h
  change EStateM.Result.ok a s = .error e s' at h
  cases h

@[simp]
theorem returns_throw : ¬ Returns (throw e : EStateM ε σ α) s a s' := by
  intro h
  change EStateM.Result.error e s = .ok a s' at h
  cases h

@[simp]
theorem raises_throw : Raises (throw e : EStateM ε σ α) s e' s' ↔ e = e' ∧ s = s' := by
  change EStateM.Result.error e s = .error e' s' ↔ _
  rw [EStateM.Result.error.injEq]

@[simp]
theorem returns_get {t : σ} : Returns (get : EStateM ε σ σ) s t s' ↔ s = t ∧ s = s' := by
  change EStateM.Result.ok s s = .ok t s' ↔ _
  rw [EStateM.Result.ok.injEq]

@[simp]
theorem raises_get : ¬ Raises (get : EStateM ε σ σ) s e s' := by
  intro h
  change EStateM.Result.ok s s = .error e s' at h
  cases h

@[simp]
theorem returns_modify {f : σ → σ} {u : PUnit} :
    Returns (modify f : EStateM ε σ PUnit) s u s' ↔ s' = f s := by
  change EStateM.Result.ok _ (f s) = .ok u s' ↔ _
  rw [EStateM.Result.ok.injEq, @eq_comm _ s']
  simp

@[simp]
theorem raises_modify {f : σ → σ} : ¬ Raises (modify f : EStateM ε σ PUnit) s e s' := by
  intro h
  change EStateM.Result.ok _ (f s) = .error e s' at h
  cases h

@[simp]
theorem returns_check {condition : Prop} [Decidable condition] {u : Unit} :
    Returns (check condition e : EStateM ε σ Unit) s u s' ↔ ¬ condition ∧ s = s' := by
  unfold check
  split_ifs with h <;> simp [h]

@[simp]
theorem raises_check {condition : Prop} [Decidable condition] :
    Raises (check condition e : EStateM ε σ Unit) s e' s' ↔ condition ∧ e = e' ∧ s = s' := by
  unfold check
  split_ifs with h <;> simp [h]

@[simp]
theorem returns_call {result : Except ε α} :
    Returns (call result : EStateM ε σ α) s a s' ↔ result = .ok a ∧ s = s' := by
  cases result <;> simp [call]

@[simp]
theorem raises_call {result : Except ε α} :
    Raises (call result : EStateM ε σ α) s e s' ↔ result = .error e ∧ s = s' := by
  cases result <;> simp [call]

section Sequence

variable {method : EStateM ε σ α} {next : α → EStateM ε σ β}

@[simp]
theorem returns_bind {b : β} :
    Returns (method >>= next) s b s' ↔
      ∃ a s₁, Returns method s a s₁ ∧ Returns (next a) s₁ b s' := by
  change (match method s with
    | .ok a s₁ => next a s₁
    | .error e s₁ => .error e s₁) = _ ↔ _
  unfold Returns
  cases method s <;> simp

/-- A sequence raises when the first part does, or the second part after the first returned. -/
@[simp]
theorem raises_bind :
    Raises (method >>= next) s e s' ↔
      Raises method s e s' ∨ ∃ a s₁, Returns method s a s₁ ∧ Raises (next a) s₁ e s' := by
  change (match method s with
    | .ok a s₁ => next a s₁
    | .error e s₁ => .error e s₁) = _ ↔ _
  unfold Returns Raises
  cases method s <;> simp

theorem returns_discard {u : Unit} :
    Returns (do let _ ← method) s u s' ↔ ∃ a, Returns method s a s' := by
  simp only [returns_bind, returns_pure, true_and, exists_eq_right]

theorem raises_discard : Raises (do let _ ← method) s e s' ↔ Raises method s e s' := by
  simp only [raises_bind, raises_pure, and_false, exists_false, or_false]

variable {handler : ε → EStateM ε σ α}

/-- A method with a handler returns when it does, or when it raises and the handler returns. -/
@[simp]
theorem returns_tryCatch :
    Returns (tryCatch method handler) s a s' ↔
      Returns method s a s' ∨ ∃ e s₁, Raises method s e s₁ ∧ Returns (handler e) s₁ a s' := by
  unfold Returns Raises
  simp only [tryCatch, tryCatchThe, MonadExceptOf.tryCatch, EStateM.tryCatch]
  cases method s <;> simp [EStateM.Backtrackable.restore, EStateM.dummyRestore]

@[simp]
theorem raises_tryCatch :
    Raises (tryCatch method handler) s e s' ↔
      ∃ e' s₁, Raises method s e' s₁ ∧ Raises (handler e') s₁ e s' := by
  unfold Raises
  simp only [tryCatch, tryCatchThe, MonadExceptOf.tryCatch, EStateM.tryCatch]
  cases method s <;> simp [EStateM.Backtrackable.restore, EStateM.dummyRestore]

end Sequence

section Branch

variable {condition : Prop} [Decidable condition] {method other : EStateM ε σ α}

@[simp]
theorem returns_ite :
    Returns (if condition then method else other) s a s' ↔
      condition ∧ Returns method s a s' ∨ ¬ condition ∧ Returns other s a s' := by
  split_ifs with h <;> simp [h]

@[simp]
theorem raises_ite :
    Raises (if condition then method else other) s e s' ↔
      condition ∧ Raises method s e s' ∨ ¬ condition ∧ Raises other s e s' := by
  split_ifs with h <;> simp [h]

end Branch

/-! ## Fields that the first call fixes -/

section FixField

variable {field : σ → Option α} {store : σ → σ} {value : Option α} [DecidableEq α]

/-- A field that has no value is stored, and one that has another value is refused. -/
def fixField (field : σ → Option α) (store : σ → σ) (value : Option α) (error : ε) :
    EStateM ε σ PUnit := do
  let s ← get
  if field s = none then modify store else check (field s ≠ value) error

/-- When storing the value that the field has changes nothing, a call returns the object with the
value stored. -/
theorem returns_fixField (hstore : field s = value → store s = s) {u : PUnit} :
    Returns (fixField field store value e) s u s' ↔
      (field s = none ∨ field s = value) ∧ s' = store s := by
  simp only [fixField, returns_bind, returns_get, returns_ite, returns_modify, returns_check,
    not_not]
  constructor
  · rintro ⟨t, s₁, ⟨rfl, rfl⟩, ⟨hnone, rfl⟩ | ⟨-, hvalue, rfl⟩⟩
    · exact ⟨.inl hnone, rfl⟩
    · exact ⟨.inr hvalue, (hstore hvalue).symm⟩
  · rintro ⟨hfield, rfl⟩
    refine ⟨s, s, ⟨rfl, rfl⟩, ?_⟩
    by_cases hnone : field s = none
    · exact .inl ⟨hnone, rfl⟩
    · have hvalue := hfield.resolve_left hnone
      exact .inr ⟨hnone, hvalue, (hstore hvalue).symm⟩

theorem raises_fixField (h : Raises (fixField field store value e) s e' s') :
    ¬ (field s = none ∨ field s = value) ∧ s' = s := by
  simp only [fixField, raises_bind, raises_get, returns_get, raises_ite, raises_modify,
    raises_check, false_or, and_false] at h
  obtain ⟨t, s₁, ⟨rfl, rfl⟩, hnone, hvalue, -, rfl⟩ := h
  exact ⟨not_or.mpr ⟨hnone, hvalue⟩, rfl⟩

end FixField

/-! ## Objects within objects -/

section Within

variable {τ : Type} {part : σ → τ} {replace : σ → τ → σ} {method : EStateM ε τ α}

/-- A call of a method of an object that is a field of another one. What the inner method wrote
before it raised stays written. -/
def within (part : σ → τ) (replace : σ → τ → σ) (method : EStateM ε τ α) : EStateM ε σ α := fun s =>
  match method (part s) with
  | .ok a t => .ok a (replace s t)
  | .error e t => .error e (replace s t)

@[simp]
theorem returns_within :
    Returns (within part replace method) s a s' ↔
      ∃ t, Returns method (part s) a t ∧ s' = replace s t := by
  unfold Returns within
  cases method (part s) <;> simp [eq_comm]

@[simp]
theorem raises_within :
    Raises (within part replace method) s e s' ↔
      ∃ t, Raises method (part s) e t ∧ s' = replace s t := by
  unfold Raises within
  cases method (part s) <;> simp [eq_comm]

end Within

/-! ## Atomic methods -/

/-- A call that raises leaves the object as it was. -/
def Atomic (method : EStateM ε σ α) (s : σ) : Prop := ∀ e s', Raises method s e s' → s' = s

/-- A call never writes. -/
def ReadsOnly (method : EStateM ε σ α) : Prop :=
  ∀ s, Atomic method s ∧ ∀ a s', Returns method s a s' → s' = s

theorem readsOnly_check {condition : Prop} [Decidable condition] :
    ReadsOnly (check condition e : EStateM ε σ Unit) := by
  intro s
  refine ⟨fun e s' h => ?_, fun a s' h => ?_⟩
  · exact (raises_check.mp h).2.2.symm
  · exact (returns_check.mp h).2.symm

theorem readsOnly_call (result : Except ε α) : ReadsOnly (call result : EStateM ε σ α) := by
  intro s
  refine ⟨fun e s' h => ?_, fun a s' h => ?_⟩
  · exact (raises_call.mp h).2.symm
  · exact (returns_call.mp h).2.symm

theorem readsOnly_get : ReadsOnly (get : EStateM ε σ σ) := by
  intro s
  refine ⟨fun e s' h => absurd h raises_get, fun a s' h => ?_⟩
  exact (returns_get.mp h).2.symm

theorem Atomic.bind {method : EStateM ε σ α} {next : α → EStateM ε σ β} (h : ReadsOnly method)
    (hnext : ∀ a, Returns method s a s → Atomic (next a) s) : Atomic (method >>= next) s := by
  intro e s' hraises
  rcases raises_bind.mp hraises with hfirst | ⟨a, s₁, hreturns, hsecond⟩
  · exact (h s).1 e s' hfirst
  · obtain rfl := (h s).2 a s₁ hreturns
    exact hnext a hreturns e s' hsecond

end Method

/-!
## Runs of calls

The calls of a list are made one after the other on one object. A call that raises does not end the
run.

* `afterAll_induction`: what every call keeps holds after every run.
* `afterAll_accepted`: when the calls that raise leave the object as it was, the calls that return
  give the same object alone.
-/

namespace Method

variable {ι ε σ α : Type} (method : ι → EStateM ε σ α)

/-- The object after a list of calls. -/
def afterAll (s : σ) (calls : List ι) : σ := calls.foldl (fun s call => after (method call) s) s

/-- The calls of a list that return, from an object. -/
def accepted (s : σ) : List ι → List ι
  | [] => []
  | call :: calls =>
    if succeeds (method call) s then call :: accepted (after (method call) s) calls
    else accepted (after (method call) s) calls

/-- Every call of the list that raises satisfies a condition on the object before it. -/
def RaisesOnly (condition : ι → σ → Prop) (s : σ) : List ι → Prop
  | [] => True
  | call :: calls =>
    (∀ e s', Raises (method call) s e s' → condition call s) ∧
      RaisesOnly condition (after (method call) s) calls

variable {method} {s : σ} {calls : List ι}

theorem afterAll_append (more : List ι) :
    afterAll method s (calls ++ more) = afterAll method (afterAll method s calls) more :=
  List.foldl_append

theorem afterAll_induction {invariant : σ → Prop} (hstart : invariant s)
    (hstep : ∀ call s, invariant s → invariant (after (method call) s)) :
    invariant (afterAll method s calls) := by
  induction calls generalizing s with
  | nil => exact hstart
  | cons call calls ih => exact ih (hstep call s hstart)

theorem afterAll_accepted {invariant : σ → Prop} {condition : ι → σ → Prop} (hstart : invariant s)
    (hstep : ∀ call s, invariant s → invariant (after (method call) s))
    (hatomic : ∀ call s, invariant s → condition call s → Atomic (method call) s)
    (h : RaisesOnly method condition s calls) :
    afterAll method s (accepted method s calls) = afterAll method s calls := by
  induction calls generalizing s with
  | nil => rfl
  | cons call calls ih =>
    obtain ⟨hcall, hcalls⟩ := h
    have hrest := ih (hstep call s hstart) hcalls
    rw [accepted]
    split_ifs with hsucceeds
    · exact hrest
    · obtain ⟨e, s', hraises⟩ := not_succeeds_iff.mp (Bool.not_eq_true _ ▸ hsucceeds)
      obtain rfl := hatomic call s hstart (hcall e s' hraises) e s' hraises
      rw [after_of_raises hraises] at hrest ⊢
      rw [hrest, afterAll, afterAll, List.foldl_cons, after_of_raises hraises]

end Method
