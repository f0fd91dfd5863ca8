import Verathos.Lib.OrderedDict
import Verathos.Lib.Texts

/-!
# Model buckets

A translation of `CompositeScorer.get_model_bucket_weights` of `neurons/scoring.py` over exact
rationals, with the score states that it reads.

The loops that fill a dictionary by group are `groupBy`: the value under the group of every item is
updated, starting from the default.
-/

namespace Verathos.Scoring

open OrderedDict

/-- The fields of a `ModelEntryScore` that the weights read. -/
structure ModelEntryScore where
  modelId : String
  modelIndex : ℤ
  emaScore : ℚ

/-- The fields of a `MinerScoreState` that the weights read. -/
structure MinerScoreState where
  address : String
  entries : OrderedDict ℤ ModelEntryScore

/-- `self.states`, by UID. -/
abbrev ScoreStates := OrderedDict ℤ MinerScoreState

/-- The arguments of `get_model_bucket_weights`. -/
structure BucketArguments where
  modelBudgets : OrderedDict String ℚ
  modelGroups : Option (OrderedDict String String)
  groupBudgets : Option (OrderedDict String ℚ)
  excludedEntries : Finset (String × ℤ)

def excludedEntryKeys (lc : LowerCase) (excludedEntries : Finset (String × ℤ)) :
    Finset (String × ℤ) :=
  excludedEntries.image fun entry => (lc.lower entry.1, entry.2)

namespace BucketArguments

variable (args : BucketArguments)

def budgets : OrderedDict String ℚ := args.modelBudgets.filter fun item => item.2 > 0

/-- `groups.get(model_id) or model_id`. -/
def groupOf (modelId : String) : String :=
  match (args.modelGroups.getD .empty).get modelId with
  | some groupId => if groupId = "" then modelId else groupId
  | none => modelId

def logicalBudgets : OrderedDict String ℚ :=
  match args.groupBudgets with
  | none => groupBy (fun item : String × ℚ => args.groupOf item.1)
      (fun logical item => max logical item.2) 0 args.budgets.entries
  | some groupBudgets => groupBudgets.filter fun item => item.2 > 0

def logicalTotal : ℚ := (args.logicalBudgets.entries.map Prod.snd).sum

def approvedGroups : OrderedDict String (Finset String) :=
  groupBy (fun item : String × ℚ => args.groupOf item.1) (fun models item => insert item.1 models) ∅
    (args.budgets.entries.filter fun item => (args.logicalBudgets.get (args.groupOf item.1)).isSome)

end BucketArguments

/-- `score < 1e-6` is no score. -/
def flooredScore (emaScore : ℚ) : ℚ := if emaScore < 1 / 10 ^ 6 then 0 else emaScore

/-- An entry with its UID and the address of its miner, in the order of the two loops. -/
structure PlacedEntry where
  uid : ℤ
  address : String
  entry : ModelEntryScore

/-- `for uid, state in self.states.items(): for entry in state.entries.values()`. -/
def placedEntries (states : ScoreStates) : List PlacedEntry :=
  states.entries.flatMap fun item =>
    item.2.entries.entries.map fun keyed => ⟨item.1, item.2.address, keyed.2⟩

/-- The entry passes the checks of the loop that groups the entries. -/
def Enters (lc : LowerCase) (args : BucketArguments) (placed : PlacedEntry) : Prop :=
  (lc.lower placed.address, placed.entry.modelIndex) ∉
      excludedEntryKeys lc args.excludedEntries ∧
    (args.budgets.get placed.entry.modelId).isSome ∧
    placed.entry.modelId ∈
      (args.approvedGroups.get (args.groupOf placed.entry.modelId)).getD ∅ ∧
    0 < flooredScore placed.entry.emaScore

instance (lc : LowerCase) (args : BucketArguments) (placed : PlacedEntry) :
    Decidable (Enters lc args placed) := inferInstanceAs (Decidable (_ ∧ _))

def entriesByGroup (lc : LowerCase) (args : BucketArguments) (states : ScoreStates) :
    OrderedDict String (List (ℤ × ℚ)) :=
  groupBy (fun placed : PlacedEntry => args.groupOf placed.entry.modelId)
    (fun entries placed => entries ++ [(placed.uid, flooredScore placed.entry.emaScore)]) []
    ((placedEntries states).filter fun placed => Enters lc args placed)

/-- `weights[uid] = weights.get(uid, 0.0) + share * score / group_score_total`. -/
def addWeight (share groupScoreTotal : ℚ) (weights : OrderedDict ℤ ℚ) (entry : ℤ × ℚ) :
    OrderedDict ℤ ℚ :=
  weights.set entry.1 ((weights.get entry.1).getD 0 + share * entry.2 / groupScoreTotal)

/-- The body of the last loop: the share of one logical group. -/
def allocate (logicalTotal : ℚ) (entriesByGroup : OrderedDict String (List (ℤ × ℚ)))
    (state : OrderedDict ℤ ℚ × ℚ) (item : String × ℚ) : OrderedDict ℤ ℚ × ℚ :=
  let logicalShare := item.2 / logicalTotal
  let entries := (entriesByGroup.get item.1).getD []
  let groupScoreTotal := (entries.map Prod.snd).sum
  if groupScoreTotal ≤ 0 then (state.1, state.2 + logicalShare)
  else (entries.foldl (addWeight logicalShare groupScoreTotal) state.1, state.2)

def getModelBucketWeights (lc : LowerCase) (states : ScoreStates) (args : BucketArguments) :
    OrderedDict ℤ ℚ × ℚ :=
  let weights := states.mapValues fun _ => 0
  if args.budgets.entries = [] then (weights, 0)
  else if args.logicalTotal ≤ 0 then (weights, 0)
  else
    let (weights, unallocated) := args.logicalBudgets.entries.foldl
      (allocate args.logicalTotal (entriesByGroup lc args states)) (weights, 0)
    (weights, min (max unallocated 0) 1)

end Verathos.Scoring
