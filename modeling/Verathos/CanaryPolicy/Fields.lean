import Verathos.Basic
import Verathos.Lib.StrictJson

/-!
# The fields of a canary policy

A translation of the field validators of `canary_policy.py`. A validator takes an object of any
type; here it takes what a JSON document can hold. What they accept is stated beside them
(`identifier_eq_ok`, `u32_eq_ok`, `canonicalQuant_eq_ok`, `signatureOf_eq_ok`).
-/

namespace Verathos.CanaryPolicy

/-- The exceptions of the canary policy. -/
inductive PolicyError where
  | document (message : String)
  | signature (message : String)
  /-- Another exception of the language, such as `KeyError`. -/
  | builtin (name : String)
deriving DecidableEq

/-- The result of a call of the canary policy. -/
abbrev PolicyResult := Except PolicyError

/-- `if condition: raise error`. -/
def refuseIf (condition : Prop) [Decidable condition] (error : PolicyError) : PolicyResult Unit :=
  if condition then .error error else .ok ()

/-- What the validators use of the tables of the Unicode standard. -/
structure Unicode extends LowerCase where
  isalnum : Char → Bool
  lower_of_ascii : ∀ s, (∀ c ∈ s.toList, c.toNat < 128 ∧ c.isUpper = false) → lower s = s

variable (u : Unicode)

/-- The texts that `_identifier` accepts. -/
def IsIdentifier (value : String) : Prop :=
  value ≠ "" ∧ value.length ≤ 128 ∧
    ∀ c ∈ value.toList, u.isalnum c = true ∨ c ∈ ['.', '_', ':', '-', '/']

instance (value : String) : Decidable (IsIdentifier u value) :=
  -- by a walk over the text, not over all characters
  have := List.decidableBAll (fun c => u.isalnum c = true ∨ c ∈ ['.', '_', ':', '-', '/'])
    value.toList
  inferInstanceAs (Decidable (_ ∧ _))

def identifier (value : Json) (name : String) : PolicyResult String :=
  match value with
  | .str s =>
    if IsIdentifier u s then .ok s else .error (.document (name ++ " is malformed"))
  | _ => .error (.document (name ++ " is malformed"))

def u32 (value : Json) (name : String) (minimum : ℤ) : PolicyResult ℤ :=
  match value with
  | .int n =>
    if n < minimum ∨ n ≥ 2 ^ 32 then .error (.document (name ++ " is out of range")) else .ok n
  | _ => .error (.document (name ++ " is out of range"))

def hex32 (value : Json) (name : String) : PolicyResult Bytes :=
  match value with
  | .str s =>
    if s.length ≠ 64 ∨ u.lower s ≠ s then
      .error (.document (name ++ " must be lowercase hexadecimal"))
    else
      match Hex.ofText s with
      | none => .error (.document (name ++ " must be hexadecimal"))
      | some decoded =>
        if decoded.length ≠ 32 then .error (.document (name ++ " must be exactly 32 bytes"))
        else .ok decoded
  | _ => .error (.document (name ++ " must be lowercase hexadecimal"))

/-- `_canonical_quant`. The text is checked before it is lower-cased. -/
def canonicalQuant (value : Json) : PolicyResult String := do
  let quant ← identifier u value "allowed quantization"
  let quant := u.lower quant
  refuseIf (quant.length > 32) (.document "allowed quantization is too long")
  return quant

def secp256k1Order : ℕ :=
  0xFFFFFFFFFFFFFFFFFFFFFFFFFFFFFFFEBAAEDCE6AF48A03BBFD25E8CD0364141

def secp256k1HalfOrder : ℕ := secp256k1Order / 2

/-- A value given as a signature or an address: bytes or another object. -/
inductive BytesOrObject where
  | bytes (value : Bytes)
  | object (value : Json)

/-- The first branches of `_signature`, which give the bytes. -/
def signatureBytes : BytesOrObject → PolicyResult Bytes
  | .bytes value => .ok value
  | .object (.str s) =>
    match Hex.ofDigits (Hex.stripPrefix s.toList) with
    | some value => .ok value
    | none => .error (.signature "canary policy signature must be hexadecimal")
  | .object _ => .error (.signature "canary policy signature must be bytes or hexadecimal")

/-- The range checks of `_signature`. -/
def IsCanonicalSignature (signature : Bytes) : Prop :=
  (0 < BigEndian.toNat (signature.take 32) ∧
      BigEndian.toNat (signature.take 32) < secp256k1Order) ∧
    (0 < BigEndian.toNat ((signature.drop 32).take 32) ∧
      BigEndian.toNat ((signature.drop 32).take 32) ≤ secp256k1HalfOrder) ∧
    signature.getD 64 0 ∈ [27, 28]

instance (signature : Bytes) : Decidable (IsCanonicalSignature signature) :=
  inferInstanceAs (Decidable (_ ∧ _))

/-- `_signature`. -/
def signatureOf (value : BytesOrObject) : PolicyResult Bytes := do
  let signature ← signatureBytes value
  refuseIf (signature.length ≠ 65)
    (.signature "canary policy signature must be exactly 65 bytes")
  refuseIf (¬ IsCanonicalSignature signature)
    (.signature "canary policy signature is not canonical")
  return signature

def address (value : BytesOrObject) (name : String) : PolicyResult Bytes := do
  let address ← match value with
    | .bytes value => .ok value
    | .object (.str s) =>
      if ['0', 'x'].isPrefixOf s.toList = true ∧ s.length = 42 then
        match Hex.ofDigits (s.toList.drop 2) with
        | some value => .ok value
        | none => .error (.signature (name ++ " is not hexadecimal"))
      else .error (.signature (name ++ " is not a 20-byte address"))
    | .object _ => .error (.signature (name ++ " is not a 20-byte address"))
  refuseIf (address.length ≠ 20 ∨ address = List.replicate 20 0)
    (.signature (name ++ " is not a nonzero 20-byte address"))
  return address

/-! ## What the validators accept -/

variable {u} {value : Json} {name s : String} {n minimum : ℤ} {bytes : Bytes}

@[simp]
theorem refuseIf_eq_ok {condition : Prop} [Decidable condition] {error : PolicyError} {x : Unit} :
    refuseIf condition error = .ok x ↔ ¬ condition := by
  unfold refuseIf
  split_ifs with h <;> simp [h]

@[simp]
theorem identifier_eq_ok :
    identifier u value name = .ok s ↔ value = .str s ∧ IsIdentifier u s := by
  cases value with
  | str text =>
    simp only [identifier]
    split_ifs with h
    · rw [Except.ok.injEq, Json.str.injEq]
      exact ⟨fun heq => ⟨heq, heq ▸ h⟩, And.left⟩
    · simp only [Json.str.injEq, false_iff, not_and]
      rintro rfl
      exact h
  | _ => simp [identifier]

@[simp]
theorem u32_eq_ok :
    u32 value name minimum = .ok n ↔ value = .int n ∧ minimum ≤ n ∧ n < 2 ^ 32 := by
  cases value with
  | int m =>
    simp only [u32]
    split_ifs with h
    · simp only [Json.int.injEq, false_iff, not_and]
      rintro rfl hmin
      omega
    · rw [Except.ok.injEq, Json.int.injEq]
      constructor
      · rintro rfl
        exact ⟨rfl, by omega, by omega⟩
      · exact And.left
  | _ => simp [u32]

@[simp]
theorem canonicalQuant_eq_ok :
    canonicalQuant u value = .ok s ↔
      ∃ t, value = .str t ∧ IsIdentifier u t ∧ s = u.lower t ∧ s.length ≤ 32 := by
  simp only [canonicalQuant, bind_eq_ok, identifier_eq_ok, refuseIf_eq_ok, pure_eq_ok,
    exists_const, not_lt]
  constructor
  · rintro ⟨t, ⟨rfl, ht⟩, hlength, rfl⟩
    exact ⟨t, rfl, ht, rfl, hlength⟩
  · rintro ⟨t, rfl, ht, rfl, hlength⟩
    exact ⟨t, ⟨rfl, ht⟩, hlength, rfl⟩

theorem lower_toText (bytes : Bytes) : u.lower (Hex.toText bytes) = Hex.toText bytes := by
  have hdigit : ∀ value : ℕ, value < 16 →
      (Hex.digit value).toNat < 128 ∧ (Hex.digit value).isUpper = false := by
    intro value hvalue
    interval_cases value <;> decide
  apply u.lower_of_ascii
  rw [Hex.toText, String.toList_ofList]
  induction bytes with
  | nil => simp [Hex.toDigits]
  | cons byte bytes ih =>
    have hbyte : byte.toNat < 256 := byte.toNat_lt
    rw [Hex.toDigits, List.forall_mem_cons, List.forall_mem_cons]
    exact ⟨hdigit _ (by omega), hdigit _ (by omega), ih⟩

theorem hex32_toText (h : bytes.length = 32) :
    hex32 u (.str (Hex.toText bytes)) name = .ok bytes := by
  have hlength : (Hex.toText bytes).length = 64 := by
    rw [Hex.length_toText, h]
  simp only [hex32, hlength, lower_toText, ne_eq, not_true_eq_false, or_self, if_false,
    Hex.ofText_toText, h]

@[simp]
theorem signatureOf_eq_ok {value : BytesOrObject} :
    signatureOf value = .ok bytes ↔
      signatureBytes value = .ok bytes ∧ bytes.length = 65 ∧ IsCanonicalSignature bytes := by
  simp only [signatureOf, bind_eq_ok, refuseIf_eq_ok, pure_eq_ok, exists_const, not_not]
  constructor
  · rintro ⟨signature, hbytes, hlength, hcanonical, rfl⟩
    exact ⟨hbytes, hlength, hcanonical⟩
  · rintro ⟨hbytes, hlength, hcanonical⟩
    exact ⟨bytes, hbytes, hlength, hcanonical, rfl⟩

theorem signatureBytes_toText (bytes : Bytes) :
    signatureBytes (.object (.str (Hex.toText bytes))) = .ok bytes := by
  simp only [signatureBytes, Hex.toText, String.toList_ofList, Hex.stripPrefix_toDigits,
    Hex.ofDigits_toDigits]

end Verathos.CanaryPolicy
