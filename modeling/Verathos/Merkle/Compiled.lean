import Verathos.Merkle.Defs

/-!
# The compiled multi-opening helper

A translation of the Merkle part of `c_multiopen.c` (`reconstruct_multiopen_wn`,
`reconstruct_multiopen_w1`, `sibling_coordinates`) and of its `ctypes` wrappers in
`c_multiopen.py`.

The C code keeps a level as two parallel arrays, `work_idx` and `work_dig`, sorted by index.
Here they are one list of pairs. Nonzero return codes are the error side of `Except ℕ`. The
wrappers return `none` where Python falls back to its own loop, and a return code where the
caller rejects.
-/

namespace Verathos.Merkle.Compiled

/-- The live part of the arrays `work_idx` and `work_dig`. -/
abbrev Work := List (ℕ × Digest)

/-- `sizeof(msg)`, the capacity of the message buffer. -/
def msgCapacity : ℕ := 448

/-- The shifting loop of the sibling insertion, on the reversed array: entries with a larger
index move one slot back, and the new entry is written in front of the first that does not. -/
def insertShift (entry : ℕ × Digest) : Work → Work
  | [] => [entry]
  | last :: rest =>
    if last.1 > entry.1 then last :: insertShift entry rest else entry :: last :: rest

/-- Insert one sibling, keeping the array sorted. -/
def insertSibling (work : Work) (entry : ℕ × Digest) : Work :=
  (insertShift entry work.reverse).reverse

/-- Insert the siblings of this level. The second component holds the siblings from `sib_off`
on. -/
def mergeSiblings (level : ℕ) : Work → List (ℕ × ℕ × Digest) → Work × List (ℕ × ℕ × Digest)
  | work, [] => (work, [])
  | work, (siblingLevel, index, digest) :: rest =>
    if siblingLevel = level then mergeSiblings level (insertSibling work (index, digest)) rest
    else (work, (siblingLevel, index, digest) :: rest)

/-- Pair up the sorted nodes of a level. Return code 2 is "missing sibling". -/
def pairUp (combine : ℕ → Digest → Digest → Digest) : Work → Except ℕ Work
  | [] => .ok []
  | [_] => .error 2
  | (index, left) :: (next, right) :: rest =>
    if next ≠ index + 1 ∨ index &&& 1 ≠ 0 then .error 2
    else do
      let parent := index >>> 1
      let parents ← pairUp combine rest
      return (parent, combine parent left right) :: parents

section Reconstruct

variable (sha256 : Bytes → Digest)

/-- The digest of an inner node, from the hoisted node prefix. -/
def nodeDigest (nodePrefix : Bytes) (level index : ℕ) (left right : Digest) : Digest :=
  sha256 (nodePrefix ++ packI level ++ packI index ++ left.bytes ++ right.bytes)

/-- The digests of the opened leaves; leaf `i` reads `values[i * width ..< (i + 1) * width]`. -/
def leafDigests (leafPrefix : Bytes) (indices values : List ℕ) (width : ℕ) : Work :=
  indices.zipIdx.map fun (index, i) =>
    (index, sha256 (leafPrefix ++ packI index ++
      ((values.drop (i * width)).take width).flatMap (LittleEndian.toBytes 8)))

/-- The `while (level_size > 1)` loop. -/
def reconstructLoop (nodePrefix : Bytes) (levelSize level : ℕ) (work : Work)
    (siblings : List (ℕ × ℕ × Digest)) : Except ℕ (Work × List (ℕ × ℕ × Digest)) :=
  if _h : 1 < levelSize then do
    let (merged, rest) := mergeSiblings level work siblings
    let parents ← pairUp (nodeDigest sha256 nodePrefix (level + 1)) merged
    reconstructLoop nodePrefix (levelSize >>> 1) (level + 1) parents rest
  else .ok (work, siblings)
termination_by levelSize
decreasing_by
  rw [Nat.shiftRight_one]
  omega

/-- `reconstruct_multiopen_wn`. Code 4 says that the leaf message exceeds the buffer, code 3
that siblings are left over or that the root is not alone. -/
def reconstructMultiopenWn (leafPrefix nodePrefix : Bytes) (leafCount : ℕ)
    (indices values : List ℕ) (width : ℕ) (siblings : List (ℕ × ℕ × Digest)) :
    Except ℕ Digest :=
  if width < 1 ∨ leafPrefix.length + 4 + 8 * width > msgCapacity then .error 4
  else do
    let work := leafDigests sha256 leafPrefix indices values width
    let (work, rest) ← reconstructLoop sha256 nodePrefix leafCount 0 work siblings
    match work, rest with
    | [(0, root)], [] => return root
    | _, _ => throw 3

def reconstructMultiopenW1 (leafPrefix nodePrefix : Bytes) (leafCount : ℕ)
    (indices values : List ℕ) (siblings : List (ℕ × ℕ × Digest)) : Except ℕ Digest :=
  reconstructMultiopenWn sha256 leafPrefix nodePrefix leafCount indices values 1 siblings

/-- `array.array("Q", values)`: values outside the unsigned 64-bit range raise. -/
def arrayQ (values : List ℤ) : Result (List ℕ) :=
  values.mapM fun value =>
    if 0 ≤ value ∧ value < 2 ^ 64 then .ok value.toNat else .error (.builtin "OverflowError")

/-- `c_multiopen.reconstruct_wn` with the library loaded. -/
def reconstructWn (leafPrefix nodePrefix : Bytes) (leafCount : ℕ) (indices : List ℕ)
    (values : List ℤ) (leafWidth : ℕ) (siblings : List (ℕ × ℕ × Digest)) :
    Result (Option (Except ℕ Digest)) :=
  if values.length ≠ indices.length * leafWidth then .ok none
  else do
    let words ← arrayQ values
    return some (reconstructMultiopenWn sha256 leafPrefix nodePrefix leafCount indices words
      leafWidth siblings)

/-- `c_multiopen.reconstruct_w1` with the library loaded. -/
def reconstructW1 (leafPrefix nodePrefix : Bytes) (leafCount : ℕ) (indices : List ℕ)
    (values : List ℤ) (siblings : List (ℕ × ℕ × Digest)) :
    Result (Option (Except ℕ Digest)) := do
  let words ← arrayQ values
  return some (reconstructMultiopenW1 sha256 leafPrefix nodePrefix leafCount indices words siblings)

end Reconstruct

/-! ## The sibling schedule -/

/-- The partners that are absent from the sorted array: a partner can only be a neighbour. -/
def absentPartners : Option ℕ → List ℕ → List ℕ
  | _, [] => []
  | previous, index :: rest =>
    let partner := index ^^^ 1
    if previous = some partner ∨ rest.head? = some partner then absentPartners (some index) rest
    else partner :: absentPartners (some index) rest

/-- The parents of the sorted array, written in place without repetition. -/
def dedupParents : Option ℕ → List ℕ → List ℕ
  | _, [] => []
  | written, index :: rest =>
    let parent := index >>> 1
    if written = some parent then dedupParents written rest
    else parent :: dedupParents (some parent) rest

/-- The `while (size > 1)` loop of `sibling_coordinates`. -/
def siblingCoordinatesLoop (size level : ℕ) (current : List ℕ) : List (ℕ × ℕ) :=
  if _h : 1 < size then
    (absentPartners none current).map (level, ·) ++
      siblingCoordinatesLoop (size >>> 1) (level + 1) (dedupParents none current)
  else []
termination_by size
decreasing_by
  rw [Nat.shiftRight_one]
  omega

/-- `c_multiopen.sibling_coordinates` with the library loaded; the output arrays have
`64 * k + 8` slots. -/
def siblingCoordinates (leafCount : ℕ) (indices : List ℕ) : Option (List (ℕ × ℕ)) :=
  let coordinates := siblingCoordinatesLoop leafCount 0 indices
  if coordinates.length > indices.length * 64 + 8 then none else some coordinates

end Verathos.Merkle.Compiled
