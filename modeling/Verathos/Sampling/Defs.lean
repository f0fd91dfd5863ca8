import Mathlib.Data.Prod.Lex
import Verathos.Basic
import Verathos.Lib.StableSort

/-!
# Leaves of logits

A translation of the parts of `sampling.py` that extract the largest logits of a row, write them to a
leaf, and check the argmax of a leaf.

An fp32 number is the 32 bits of its encoding. NumPy compares numbers by `floatKey`. `np.argpartition`
is a parameter.
-/

namespace Verathos.Sampling

open StableSort (sortBy)

/-! ## Floating-point numbers -/

/-- The place of a floating-point number in the order of NumPy, from its bits: the order of the values,
where both zeros are equal, and what is not a number comes last. -/
def floatKey (fraction exponent bits : ℕ) : ℤ :=
  let sign := 2 ^ (fraction + exponent)
  let magnitude := bits % sign
  if (2 ^ exponent - 1) * 2 ^ fraction < magnitude then 2 * sign
  else if bits < sign then magnitude
  else -magnitude

/-- The place of an fp32 number. -/
def fp32Key (bits : UInt32) : ℤ := floatKey 23 8 bits.toNat

/-- The place of an fp16 number. -/
def fp16Key (bits : UInt16) : ℤ := floatKey 10 5 bits.toNat

/-- The number is none: its exponent is the largest and its fraction is not zero. -/
def IsNan (bits : UInt32) : Prop := (2 ^ 8 - 1) * 2 ^ 23 < bits.toNat % 2 ^ 31

/-- `-value`: the sign bit flipped. -/
def negate (bits : UInt32) : UInt32 := bits + 2147483648

/-- The place of a position of a row. -/
def valueKey (logits : List UInt32) (index : ℕ) : ℤ := fp32Key (logits.getD index 0)

/-! ## The largest logits -/

/-- `np.lexsort((idx, -vals))` and the two arrays in its order. -/
def lexsorted (vals : List UInt32) (idx : List ℕ) : List UInt32 × List ℕ :=
  let sorted := sortBy (fun (value, index) => (toLex (fp32Key (negate value), index) : ℤ ×ₗ ℕ))
    (vals.zip idx)
  (sorted.map Prod.fst, sorted.map Prod.snd)

/-- `extract_top_k_sorted`, with `np.argpartition(logits, kth)` as `argpartition logits kth`. -/
def extractTopKSorted (argpartition : List UInt32 → ℕ → List ℕ) (logits : List UInt32) (k : ℕ) :
    List UInt32 × List ℕ :=
  let n := logits.length
  let actualK := min k n
  let idx :=
    if actualK ≥ n then List.range n
    else
      let order := argpartition logits (n - actualK)
      order.drop (order.length - actualK)
  lexsorted (idx.map fun index => logits.getD index 0) idx

/-! ## Leaves -/

def serializeTopKToBytes (vals : List UInt32) (idx : List ℤ) : Bytes :=
  vals.flatMap (fun value => LittleEndian.toBytes 4 value.toNat) ++
    idx.flatMap (LittleEndian.toBytesSigned 8)

/-- The fields of one width in a buffer. -/
def fields (width : ℕ) (buffer : Bytes) : List Bytes :=
  (List.range (buffer.length / width)).map fun place => (buffer.drop (width * place)).take width

/-- `np.frombuffer(buffer, dtype="<f4")`. -/
def fp32Buffer (buffer : Bytes) : List UInt32 :=
  (fields 4 buffer).map fun field => UInt32.ofNat (LittleEndian.toNat field)

/-- `np.frombuffer(buffer, dtype="<f2")`. -/
def fp16Buffer (buffer : Bytes) : List UInt16 :=
  (fields 2 buffer).map fun field => UInt16.ofNat (LittleEndian.toNat field)

/-- The text of the exception of `parse_top_k_leaf`. -/
def leafLengthMessage (n : ℕ) : String :=
  "top-K leaf length " ++ toString n ++
    " is not a multiple of 12 (4 bytes fp32 + 8 bytes int64 per entry)"

def parseTopKLeaf (leafBytes : Bytes) : Result (List UInt32 × List ℤ) := do
  let n := leafBytes.length
  if n = 0 then return ([], [])
  raiseIf (n % 12 ≠ 0) (.builtin ("ValueError: " ++ leafLengthMessage n))
  let k := n / 12
  let vals := fp32Buffer (leafBytes.take (4 * k))
  let idx := (fields 8 (leafBytes.drop (4 * k))).map LittleEndian.toIntSigned
  return (vals, idx)

/-- `np.argmax` of a row that is not empty: the first position of the largest key. -/
def argmax : List ℤ → ℕ
  | [] => 0
  | [_] => 0
  | key :: keys =>
    let later := argmax keys
    if key < keys.getD later 0 then later + 1 else 0

/-- The check of the index array of a top-K leaf. -/
def checkTopK (idx : List ℤ) (committedToken : ℤ) : Bool × String :=
  match idx with
  | [] => (false, "empty top-K leaf")
  | argmax :: _ =>
    if argmax = committedToken then
      (true, "top-K argmax (idx[0]=" ++ toString argmax ++ ") matches committed token")
    else
      (false, "top-K argmax mismatch: idx[0]=" ++ toString argmax ++ ", committed=" ++
        toString committedToken)

/-- The check of the keys of all logits. -/
def checkLogits (keys : List ℤ) (committedToken : ℤ) : Bool × String :=
  if keys = [] then (false, "empty logits row")
  else
    let exactArgmax := argmax keys
    if (exactArgmax : ℤ) = committedToken then
      (true, "exact logits argmax matches token " ++ toString committedToken)
    else
      (false, "logits argmax mismatch: argmax=" ++ toString exactArgmax ++ ", committed=" ++
        toString committedToken)

def verifyFp16Argmax (leafBytes : Bytes) (committedToken : ℤ) : Bool × String :=
  let n := leafBytes.length
  if n = 0 then (false, "empty logits row")
  else if n % 12 = 0 then
    match parseTopKLeaf leafBytes with
    | .error _ => (false, leafLengthMessage n)
    | .ok (_, idx) => checkTopK idx committedToken
  else if n % 4 = 0 then checkLogits ((fp32Buffer leafBytes).map fp32Key) committedToken
  else if n % 2 = 0 then checkLogits ((fp16Buffer leafBytes).map fp16Key) committedToken
  else (false, "invalid logits row length: " ++ toString n)

end Verathos.Sampling
