import Mathlib.Data.Prod.Lex
import Mathlib.Data.String.Basic
import Verathos.Lib.FirstFit
import Verathos.Lib.OrderedDict
import Verathos.Lib.StableSort
import Verathos.Pcs.Defs
import Verathos.Receipts.Defs

/-!
# Variable column groups

A translation of `plan_succinct_variable_column_groups_v3` and of the host path of
`commit_succinct_variable_column_groups_v3` in `goldilocks_succinct_zero_check_toolkit.py`.

* Columns with a power of two of cells are packed into a few groups, first-fit by decreasing size,
  and the cells of a group are committed in one tree.
* A member of a group is the block that its `block_point` selects.

SHA-256, the coset profile and the query count of the statements are parameters. Sizes are natural
numbers: a negative one would be refused as 0 is. Values are integers; what a tensor holds in 64
signed bits is read as an unsigned word.
-/

namespace Verathos.ColumnGroups

open Pcs
open Merkle
open Receipts (utf8)

def columnDomain : Bytes := asciiBytes "VERATHOS/PROOF_V3/GOLDILOCKS_TILE_COLUMN/V1"

def variableGroupLayoutDomain : Bytes :=
  asciiBytes "VERATHOS/PROOF_V3/GOLDILOCKS_VARIABLE_COLUMN_GROUP/V1"

/-! ## Plans -/

/-- `VariableColumnMemberPlanV3`. -/
structure VariableColumnMemberPlan where
  tag : String
  cellCount : ℕ
  offset : ℕ
  blockPoint : List ℤ
deriving DecidableEq

/-- `VariableColumnGroupPlanV3`. -/
structure VariableColumnGroupPlan where
  groupTag : String
  layoutDigest : Digest
  cellCount : ℕ
  members : List VariableColumnMemberPlan
deriving DecidableEq

/-- The error of a member whose offset is not a multiple of its size. -/
def alignmentError : PyError := .proofV3Error "variable column packing lost subcube alignment"

/-- The loop over the members of a group, from an offset on. -/
def memberPlans (groupVariables : ℕ) : ℕ → List (String × ℕ) →
    Result (List VariableColumnMemberPlan)
  | _, [] => .ok []
  | offset, (tag, cellCount) :: items => do
    raiseIf (offset % cellCount ≠ 0) alignmentError
    let memberVariables := cellCount.size - 1
    let blockIndex := offset >>> memberVariables
    let blockPoint := (List.range (groupVariables - memberVariables)).map fun bit =>
      (((blockIndex >>> bit) &&& 1 : ℕ) : ℤ)
    let members ← memberPlans groupVariables (offset + cellCount) items
    return ⟨tag, cellCount, offset, blockPoint⟩ :: members

/-- `layout`, as the loop has filled it. -/
def layoutBytes (tileDigest : Bytes) (groupTagPrefix : String) (groupIndex groupCells : ℕ)
    (members : List VariableColumnMemberPlan) : Bytes :=
  variableGroupLayoutDomain ++ tileDigest ++
    (packI groupIndex ++ packI groupCells ++ packI members.length) ++
    LittleEndian.toBytes 2 (utf8 groupTagPrefix).length ++ utf8 groupTagPrefix ++
    members.flatMap fun member =>
      LittleEndian.toBytes 2 (utf8 member.tag).length ++ packI member.cellCount ++
        packI member.offset ++ utf8 member.tag

/-- The order in which the columns are packed: by decreasing size, then by tag. -/
def packingKey (item : String × ℕ) : ℤ ×ₗ String := toLex (-(item.2 : ℤ), item.1)

section Plan

variable (sha256 : Bytes → Digest) (tileDigest : Bytes) (groupTagPrefix : String)

/-- The plan of a bin. -/
def groupPlan (groupIndex : ℕ) (bin : FirstFit.Bin (String × ℕ)) :
    Result VariableColumnGroupPlan := do
  let groupCells := 1 <<< (bin.2 - 1).size
  let groupVariables := groupCells.size - 1
  -- `struct.pack` has 32 bits for the index
  raiseIf (groupIndex ≥ 2 ^ 32) (.builtin "struct.error")
  let members ← memberPlans groupVariables 0 bin.1
  return {
    groupTag := groupTagPrefix ++ "/" ++ toString groupIndex
    layoutDigest :=
      sha256 (layoutBytes tileDigest groupTagPrefix groupIndex groupCells members)
    cellCount := groupCells
    members := members }

/-- The condition on the parameters. -/
def checkParameters (maxGroupCells : ℕ) : Result Unit :=
  raiseIf (tileDigest.length ≠ 32 ∨ groupTagPrefix = "" ∨ (utf8 groupTagPrefix).length > 192 ∨
      maxGroupCells < 1 ∨ maxGroupCells > 2 ^ 30 ∨ maxGroupCells &&& (maxGroupCells - 1) ≠ 0)
    (.proofV3Error "variable column group parameters are malformed")

/-- The condition on the inventory. -/
def checkInventory (orderedSizes : List (String × ℕ)) (maxGroupCells : ℕ) : Result Unit :=
  raiseIf (orderedSizes = [] ∨
      (∃ item ∈ orderedSizes, item.1 = "" ∨ (utf8 item.1).length > 255) ∨
      ¬ (orderedSizes.map Prod.fst).Nodup ∨
      ∃ item ∈ orderedSizes,
        item.2 < 2 ∨ item.2 > maxGroupCells ∨ item.2 &&& (item.2 - 1) ≠ 0)
    (.proofV3Error "variable column group inventory is malformed")

/-- `plan_succinct_variable_column_groups_v3`. -/
def planSuccinctVariableColumnGroups (orderedSizes : List (String × ℕ)) (maxGroupCells : ℕ) :
    Result (List VariableColumnGroupPlan) := do
  checkParameters tileDigest groupTagPrefix maxGroupCells
  checkInventory orderedSizes maxGroupCells
  let pending := StableSort.sortBy packingKey orderedSizes
  let bins := FirstFit.firstFit maxGroupCells Prod.snd pending
  bins.zipIdx.mapM fun (bin, groupIndex) =>
    groupPlan sha256 tileDigest groupTagPrefix groupIndex bin

end Plan

/-! ## Commitments -/

/-- `SuccinctColumnV3`, on the host. -/
structure SuccinctColumn where
  tag : String
  pcsStatement : GoldilocksMultilinearPcsStatementV3
  tree : GoldilocksMerkleTreeReference
  values : List ℤ
  groupTag : Option String := none
  blockPoint : List ℤ := []

/-- `value + (1 << 64) if value < 0 else value`. -/
def unsignedWord (value : ℤ) : ℤ := if value < 0 then value + 2 ^ 64 else value

/-- `concat_values`: the cells of the members, and zeros up to the size of the group. -/
def concatValues (plan : VariableColumnGroupPlan) (values : String → List ℤ) : List ℤ :=
  let active := plan.members.flatMap fun member => (values member.tag).map unsignedWord
  active ++ List.replicate (plan.cellCount - active.length) 0

/-- `mapping[key]`. -/
def entryOf {α : Type} (mapping : OrderedDict String α) (key : String) : Result α :=
  match mapping.get key with
  | some entry => .ok entry
  | none => .error (.builtin "KeyError")

section Commit

variable (sha256 : Bytes → Digest) (profile : CosetProfile) (queryCount : ℕ)

/-- `column_pcs_statement_v3`. -/
def columnPcsStatement (tileDigest : Bytes) (tag : String) (variableCount : ℕ) :
    Result GoldilocksMultilinearPcsStatementV3 :=
  GoldilocksMultilinearPcsStatementV3.postInit
    (sha256 (columnDomain ++ tileDigest ++ utf8 tag)).bytes variableCount profile queryCount

/-- `commit_succinct_column_v3` with values on the host. -/
def commitSuccinctColumn (tileDigest : Bytes) (tag : String) (values : List ℤ)
    (canonicalInput : Bool) : Result SuccinctColumn := do
  -- `1 << -1` of an empty column
  raiseIf (values = []) (.builtin "ValueError")
  let variableCount := values.length.size - 1
  raiseIf (1 <<< variableCount ≠ values.length)
    (.proofV3Error "tile column length must be a power of two")
  let statement ← columnPcsStatement sha256 profile queryCount tileDigest tag variableCount
  let canonical := if canonicalInput then values else values.map (· % goldilocksModulus)
  let tree ← commitGoldilocksMultilinearV3 sha256 statement canonical
  return { tag := tag, pcsStatement := statement, tree := tree, values := canonical }

/-- The view of a member of a committed group. -/
def memberView (tileDigest : Bytes) (memberBindings : Option (OrderedDict String (Bytes × String)))
    (values : String → List ℤ) (plan : VariableColumnGroupPlan) (group : SuccinctColumn)
    (member : VariableColumnMemberPlan) : Result (String × SuccinctColumn) := do
  let binding ←
    match memberBindings with
    | some bindings => entryOf bindings member.tag
    | none => .ok (tileDigest, member.tag)
  let statement ← columnPcsStatement sha256 profile queryCount binding.1 binding.2
    (member.cellCount.size - 1)
  return (member.tag,
    { tag := member.tag
      pcsStatement := statement
      tree := group.tree
      values := values member.tag
      groupTag := some plan.groupTag
      blockPoint := member.blockPoint })

/-- The loop body of `commit_succinct_variable_column_groups_v3`: a group and its views. -/
def commitGroup (tileDigest : Bytes) (memberBindings : Option (OrderedDict String (Bytes × String)))
    (values : String → List ℤ) (plan : VariableColumnGroupPlan) :
    Result (SuccinctColumn × List (String × SuccinctColumn)) := do
  let group ← commitSuccinctColumn sha256 profile queryCount plan.layoutDigest.bytes plan.groupTag
    (concatValues plan values) true
  let views ← plan.members.mapM
    (memberView sha256 profile queryCount tileDigest memberBindings values plan group)
  return (group, views)

/-- `commit_succinct_variable_column_groups_v3` on the host. -/
def commitSuccinctVariableColumnGroups (tileDigest : Bytes) (groupTagPrefix : String)
    (ordered : List (String × List ℤ)) (maxGroupCells : ℕ)
    (memberBindings : Option (OrderedDict String (Bytes × String))) :
    Result (List SuccinctColumn × OrderedDict String SuccinctColumn ×
      List VariableColumnGroupPlan) := do
  let valuesByTag := OrderedDict.ofList ordered
  raiseIf (valuesByTag.entries.length ≠ ordered.length)
    (.proofV3Error "variable column tags are duplicated")
  let plans ← planSuccinctVariableColumnGroups sha256 tileDigest groupTagPrefix
    (ordered.map fun entry => (entry.1, entry.2.length)) maxGroupCells
  -- every tag of a plan is a tag of the dictionary
  let values := fun tag => (valuesByTag.get tag).getD []
  let groups ← plans.mapM
    (commitGroup sha256 profile queryCount tileDigest memberBindings values)
  return (groups.map Prod.fst, OrderedDict.ofList (groups.flatMap Prod.snd), plans)

end Commit

end Verathos.ColumnGroups
