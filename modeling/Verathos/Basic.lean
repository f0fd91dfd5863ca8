import Verathos.Lib.Digits

/-!
# Bytes, digests and errors

The data that every part of the proof-v3 verifier shares: byte strings, SHA-256 digests, the
error classes of `errors.py`, and the result type of code that may raise.

SHA-256 is a parameter of the development: every definition that hashes takes a function
`sha256 : Bytes → Digest`, and no property of it is assumed. A `Digest` carries the proof that
it has 32 bytes, so `_fixed_bytes(value, 32, …)` holds by construction wherever a digest stands.
-/

namespace Verathos

/-- A Python `bytes` value. -/
abbrev Bytes := List UInt8

/-- The order of bytes, by which byte strings are ordered lexicographically. -/
instance instLinearOrderUInt8 : LinearOrder UInt8 where
  le_refl := UInt8.le_refl
  le_trans _ _ _ := UInt8.le_trans
  le_antisymm _ _ := UInt8.le_antisymm
  le_total := UInt8.le_total
  lt_iff_le_not_ge _ _ := by rw [UInt8.not_le, and_iff_right_of_imp UInt8.le_of_lt]
  toDecidableLE := inferInstance

instance bytesLawfulBEq : LawfulBEq (List UInt8) := inferInstance

/-- The bytes literal `b"…"` of an ASCII text. -/
def asciiBytes (text : String) : Bytes :=
  text.toList.map fun character => UInt8.ofNat character.toNat

/-- A byte string of exactly 32 bytes. -/
structure Digest where
  bytes : Bytes
  length_eq : bytes.length = 32
deriving DecidableEq

attribute [simp] Digest.length_eq

@[ext]
theorem Digest.ext {a b : Digest} (h : a.bytes = b.bytes) : a = b := by
  cases a
  cases b
  simpa using h

/-- The digest of 32 zero bytes. -/
def Digest.zero : Digest := ⟨List.replicate 32 0, by simp⟩

/-- The digest of a one before zero bytes. -/
def Digest.one : Digest := ⟨1 :: List.replicate 31 0, by simp⟩

theorem Digest.one_ne_zero : Digest.one ≠ Digest.zero := by decide

theorem one_le_one_nat : 1 ≤ 1 := le_rfl

/-- The digest that repeats a byte. -/
def Digest.fill (byte : UInt8) : Digest := ⟨List.replicate 32 byte, by simp⟩

/-- An exception raised by the verifier. `ProofV3VerificationError` is a subclass of
`ProofV3Error`, which is a subclass of `ValueError`. -/
inductive PyError where
  | proofV3Error (message : String)
  | proofV3VerificationError (message : String)
  /-- An exception of the language itself, such as `IndexError` or `struct.error`. -/
  | builtin (name : String)
deriving DecidableEq, Repr

/-- The result of code that may raise. -/
abbrev Result := Except PyError

/-- `if condition: raise error`. -/
def raiseIf (condition : Prop) [Decidable condition] (error : PyError) : Result Unit :=
  if condition then .error error else .ok ()

/-- `try: … except ProofV3Error as exc: raise error from exc`. -/
def exceptProofV3 {α : Type} (error : PyError) : Result α → Result α
  | .ok value => .ok value
  | .error (.builtin name) => .error (.builtin name)
  | .error _ => .error error

/-- The exception clauses of a verifier: `ProofV3VerificationError` passes, `ProofV3Error` and the
listed exceptions of the language become a `ProofV3VerificationError`. -/
def exceptListed {α : Type} (caught : List String) (message : String) : Result α → Result α
  | .error (.proofV3Error _) => .error (.proofV3VerificationError message)
  | .error (.builtin name) =>
    if name ∈ caught then .error (.proofV3VerificationError message) else .error (.builtin name)
  | result => result

/-- `_fixed_bytes(value, 32, name)`. -/
def fixedBytes32 (value : Bytes) (name : String) : Result Digest :=
  if h : value.length = 32 then .ok ⟨value, h⟩
  else .error (.proofV3Error (name ++ " must be exactly 32 bytes"))

/-- `items[index]`. -/
def getItem {α : Type} (items : List α) (index : ℕ) : Result α :=
  match items[index]? with
  | some item => .ok item
  | none => .error (.builtin "IndexError")

/-- The call returned instead of raising. -/
def Accepts {α : Type} (result : Result α) : Prop :=
  ∃ value, result = .ok value

instance {α : Type} (result : Result α) : Decidable (Accepts result) :=
  match result with
  | .ok value => .isTrue ⟨value, rfl⟩
  | .error _ => .isFalse fun ⟨_, h⟩ => nomatch h

section Except

variable {ε α β : Type} {x : Except ε α} {f : α → Except ε β}

@[simp]
theorem bind_eq_ok {b : β} : (x >>= f) = .ok b ↔ ∃ a, x = .ok a ∧ f a = .ok b := by
  cases x with
  | error e => simp [bind, Except.bind]
  | ok a => simp [bind, Except.bind]

@[simp]
theorem pure_eq_ok {a b : α} : (pure a : Except ε α) = .ok b ↔ a = b := by
  simp [pure, Except.pure]

variable {error : PyError}

@[simp]
theorem raiseIf_eq_ok {condition : Prop} [Decidable condition] {u : Unit} :
    raiseIf condition error = .ok u ↔ ¬ condition := by
  unfold raiseIf
  split_ifs with h <;> simp [h]

theorem bind_eq_error {e : ε} :
    (x >>= f) = .error e ↔ x = .error e ∨ ∃ a, x = .ok a ∧ f a = .error e := by
  cases x with
  | error e => simp [bind, Except.bind]
  | ok a => simp [bind, Except.bind]

theorem raiseIf_eq_error {condition : Prop} [Decidable condition] {e : PyError} :
    raiseIf condition error = .error e ↔ condition ∧ error = e := by
  unfold raiseIf
  split_ifs with h <;> simp [h]

@[simp]
theorem exceptProofV3_eq_ok {x : Result α} {a : α} : exceptProofV3 error x = .ok a ↔ x = .ok a := by
  rcases x with (_ | _ | _) | _ <;> simp [exceptProofV3]

@[simp]
theorem exceptListed_eq_ok {caught : List String} {message : String} {x : Result α} {a : α} :
    exceptListed caught message x = .ok a ↔ x = .ok a := by
  rcases x with (_ | _ | name) | _
  · simp [exceptListed]
  · simp [exceptListed]
  · simp only [exceptListed]
    split_ifs <;> simp
  · simp [exceptListed]

@[simp]
theorem fixedBytes32_eq_ok {value : Bytes} {name : String} {digest : Digest} :
    fixedBytes32 value name = .ok digest ↔ value = digest.bytes := by
  unfold fixedBytes32
  split_ifs with h
  · rw [Except.ok.injEq, Digest.ext_iff, eq_comm]
  · simp only [false_iff]
    rintro rfl
    exact h digest.length_eq

variable {items : List α}

@[simp]
theorem getItem_eq_ok {index : ℕ} {item : α} :
    getItem items index = .ok item ↔ items[index]? = some item := by
  unfold getItem
  cases items[index]? <;> simp

@[simp]
theorem accepts_ok (a : α) : Accepts (Except.ok a : Result α) := ⟨a, rfl⟩

@[simp]
theorem not_accepts_error (e : PyError) : ¬ Accepts (Except.error e : Result α) :=
  fun ⟨_, h⟩ => nomatch h

theorem not_accepts_of_eq_error {x : Result α} {e : PyError} (h : x = .error e) : ¬ Accepts x := by
  rw [h]
  exact not_accepts_error e

theorem accepts_bind {x : Result α} {f : α → Result β} : Accepts (x >>= f) ↔ ∃ a, x = .ok a ∧ Accepts (f a) := by
  constructor
  · rintro ⟨b, h⟩
    obtain ⟨a, ha, hb⟩ := bind_eq_ok.mp h
    exact ⟨a, ha, b, hb⟩
  · rintro ⟨a, ha, b, hb⟩
    exact ⟨b, bind_eq_ok.mpr ⟨a, ha, hb⟩⟩

theorem forM_accepts_iff {α : Type} {items : List α} {check : α → Result Unit} :
    Accepts (items.forM check) ↔ ∀ item ∈ items, Accepts (check item) := by
  induction items with
  | nil => simp [Accepts]
  | cons item items ih =>
    change Accepts (check item >>= fun _ => items.forM check) ↔ _
    rw [accepts_bind, List.forall_mem_cons, ← ih]
    constructor
    · rintro ⟨u, hitem, hrest⟩
      exact ⟨⟨u, hitem⟩, hrest⟩
    · rintro ⟨⟨u, hitem⟩, hrest⟩
      exact ⟨u, hitem, hrest⟩

theorem mapM_eq_ok {results : List β} :
    items.mapM f = .ok results ↔ List.Forall₂ (fun a b => f a = .ok b) items results := by
  induction items generalizing results with
  | nil => rw [List.mapM_nil, pure_eq_ok, List.forall₂_nil_left_iff, eq_comm]
  | cons a items ih =>
    rw [List.mapM_cons, List.forall₂_cons_left_iff]
    simp only [bind_eq_ok, pure_eq_ok, ih]
    constructor
    · rintro ⟨b, hb, bs, hbs, rfl⟩
      exact ⟨b, bs, hb, hbs, rfl⟩
    · rintro ⟨b, bs, hb, hbs, rfl⟩
      exact ⟨b, hb, bs, hbs, rfl⟩

theorem mapM_eq_ok_of_iff {P : α → Prop} {g : α → β} (h : ∀ a b, f a = .ok b ↔ P a ∧ b = g a)
    {results : List β} :
    items.mapM f = .ok results ↔ (∀ a ∈ items, P a) ∧ results = items.map g := by
  rw [mapM_eq_ok]
  simp only [h]
  induction items generalizing results with
  | nil => simp [List.forall₂_nil_left_iff]
  | cons a items ih =>
    simp only [List.forall₂_cons_left_iff, ih, List.forall_mem_cons, List.map_cons]
    constructor
    · rintro ⟨b, bs, ⟨ha, rfl⟩, ⟨hall, rfl⟩, rfl⟩
      exact ⟨⟨ha, hall⟩, rfl⟩
    · rintro ⟨⟨ha, hall⟩, rfl⟩
      exact ⟨g a, items.map g, ⟨ha, rfl⟩, ⟨hall, rfl⟩, rfl⟩

theorem mapM_eq_ok_map {g : α → β} (h : ∀ a ∈ items, f a = .ok (g a)) :
    items.mapM f = .ok (items.map g) := by
  rw [mapM_eq_ok, List.forall₂_map_right_iff, List.forall₂_same]
  exact h

theorem exists_of_mapM_eq_error {e : ε} (h : items.mapM f = .error e) :
    ∃ a ∈ items, f a = .error e := by
  induction items with
  | nil => cases h
  | cons a items ih =>
    simp only [List.mapM_cons, bind_eq_error] at h
    rcases h with ha | ⟨b, -, hitems | ⟨bs, -, hpure⟩⟩
    · exact ⟨a, List.mem_cons_self, ha⟩
    · obtain ⟨a', ha', hraise⟩ := ih hitems
      exact ⟨a', List.mem_cons_of_mem _ ha', hraise⟩
    · cases hpure

theorem exists_mapM_iff :
    (∃ results, items.mapM f = .ok results) ↔ ∀ a ∈ items, ∃ b, f a = .ok b := by
  simp only [mapM_eq_ok]
  induction items with
  | nil => simp
  | cons a items ih =>
    rw [List.forall_mem_cons, ← ih]
    constructor
    · rintro ⟨_, h⟩
      obtain ⟨b, bs, hb, hbs, rfl⟩ := List.forall₂_cons_left_iff.mp h
      exact ⟨⟨b, hb⟩, bs, hbs⟩
    · rintro ⟨⟨b, hb⟩, bs, hbs⟩
      exact ⟨b :: bs, .cons hb hbs⟩

end Except

end Verathos
