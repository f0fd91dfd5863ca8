import Verathos.CanarySchedule.Defs
import Verathos.Lib.Method
import Verathos.Scoring.Defs

/-!
# Prompts near a token target

A translation of `materialize_canary_prompt` of `canary.py`: the search for a number of characters
whose prompt has a number of tokens just below the target of a test.

The text of a prompt, the words of the additional detail and the floating-point steps between numbers
of characters are parameters. A search keeps a list of the candidates that it has measured, which is
no variable of the source: it says what the search has seen.
-/

namespace Verathos.CanarySchedule

open Method
open Scoring (canaryPromptTokenTolerance)

/-- The floating-point steps between numbers of characters. -/
structure CharacterScale where
  initial : ℤ → Result ℤ
  scale : ℤ → ℤ → ℤ → Result ℤ

/-- A prompt with its number of tokens. -/
abbrev Candidate := String × ℤ

/-- The count is above the one of the best candidate. -/
def Improves (best : Option Candidate) (count : ℤ) : Prop := ∀ candidate ∈ best, count > candidate.2

instance (best : Option Candidate) (count : ℤ) : Decidable (Improves best count) := by
  unfold Improves
  infer_instance

/-- The variables of the search of `materialize_canary_prompt`. -/
structure Search where
  prompt : String := ""
  count : ℤ := 0
  chars : ℤ
  bestUnder : Option Candidate := none
  underChars : Option ℤ := none
  overChars : Option ℤ := none
  measured : List Candidate := []

section Search

variable (tokenCounter : String → ℤ) (render : ℤ → Result String) (floats : CharacterScale)
  (target tolerance goal : ℤ)

/-- A text with its number of tokens, which has to be positive. -/
def measure (value message : String) : Result Candidate := do
  raiseIf (tokenCounter value ≤ 0) (valueError message)
  return (value, tokenCounter value)

/-- `render_candidate(chars)`, measured. -/
def measureAt (chars : ℤ) : Result Candidate := do
  let prompt ← render chars
  measure tokenCounter prompt "canary tokenizer produced no prompt tokens"

/-! ## The three phases -/

/-- The bookkeeping of a candidate of the first phase. -/
def Search.record (search : Search) (candidate : Candidate) : Search :=
  let search := { search with
    prompt := candidate.1
    count := candidate.2
    measured := search.measured ++ [candidate] }
  if candidate.2 ≤ target ∧ Improves search.bestUnder candidate.2 then
    { search with bestUnder := some candidate, underChars := some search.chars }
  else if candidate.2 > target then { search with overChars := some search.chars }
  else search

/-- The proportional correction, for at most `steps` steps. -/
def proportional : ℕ → Search → Result Search
  | 0, search => return search
  | steps + 1, search => do
    let candidate ← measureAt tokenCounter render search.chars
    let search := search.record target candidate
    if search.count ≤ target ∧ target - search.count ≤ tolerance then return search
    let chars ← floats.scale search.chars goal search.count
    proportional steps { search with chars := max 256 chars }

/-- The halving below the lowest overshoot, for at most `steps` steps. -/
def bracket : ℕ → ℤ → ℤ → Search → Result Search
  | 0, _, _, search => return search
  | steps + 1, low, high, search => do
    if low ≤ 256 then return search
    let low := max 256 (low / 2)
    let candidate ← measureAt tokenCounter render low
    let search := { search with measured := search.measured ++ [candidate] }
    if candidate.2 ≤ target then
      return { search with
        bestUnder := some candidate
        underChars := some low
        overChars := some high }
    bracket steps low low { search with overChars := some low }

/-- The bisection between an undershoot and an overshoot, for at most `steps` steps. -/
def bisect : ℕ → ℤ → ℤ → Search → Result Search
  | 0, _, _, search => return search
  | steps + 1, low, high, search => do
    if high - low ≤ 1 then return search
    let chars := (low + high) / 2
    let candidate ← measureAt tokenCounter render chars
    let search := { search with measured := search.measured ++ [candidate] }
    if candidate.2 ≤ target then
      bisect steps chars high
        (if Improves search.bestUnder candidate.2 then { search with bestUnder := some candidate }
          else search)
    else bisect steps low chars search

/-- The prompt and the count of the best candidate, where there is one. -/
def Search.takeBest (search : Search) : Search :=
  match search.bestUnder with
  | some (prompt, count) => { search with prompt, count }
  | none => search

/-- The second phase, when the first one found overshoots only. -/
def bracketPhase (search : Search) : Result Search :=
  if search.bestUnder = none ∧ search.count > target then
    let high := search.overChars.getD search.chars
    bracket tokenCounter render target 12 high high search
  else .ok search

/-- The third phase, when there is an undershoot below an overshoot. -/
def bisectPhase (search : Search) : Result Search :=
  match search.underChars, search.overChars with
  | some underChars, some overChars =>
    if (search.count > target ∨ target - search.count > tolerance) ∧ underChars < overChars then do
      let search ← bisect tokenCounter render target 12 underChars overChars search
      return search.takeBest
    else if search.count > target then .ok search.takeBest
    else .ok search
  | _, _ => if search.count > target then .ok search.takeBest else .ok search

/-- The proportional, the bracketing and the bisection phase. -/
def phases (chars : ℤ) : Result Search := do
  let search ← proportional tokenCounter render floats target tolerance goal 8 { chars }
  let search ← bracketPhase tokenCounter render target search
  bisectPhase tokenCounter render target tolerance search

end Search

/-! ## The refinement -/

section Refine

variable (tokenCounter : String → ℤ) (prompt : String) (words : List String) (target : ℤ)

/-- `candidate(word_count)`. -/
def detailed (wordCount : ℤ) : Result Candidate :=
  measure tokenCounter (prompt ++ "\n\nAdditional source detail: " ++
    " ".intercalate (words.take wordCount.toNat) ++ ".")
    "canary tokenizer produced no prompt tokens"

/-- A candidate replaces the best one when it is larger and not above the target. -/
def improve (best candidate : Candidate) : Candidate :=
  if candidate.2 ≤ target ∧ candidate.2 > best.2 then candidate else best

/-- `while low <= high`: the boundary and the best candidate. -/
def refineSearch (low high boundary : ℤ) (best : Candidate) : Result (ℤ × Candidate) :=
  if low ≤ high then do
    let middle := (low + high) / 2
    let candidate ← detailed tokenCounter prompt words middle
    if candidate.2 ≤ target then
      refineSearch (middle + 1) high middle (improve target best candidate)
    else refineSearch low (middle - 1) boundary best
  else .ok (boundary, best)
termination_by (high + 1 - low).toNat
decreasing_by all_goals omega

/-- The loop over the word counts around the boundary. -/
def refineNeighbourhood : List ℤ → Candidate → Result Candidate
  | [], best => return best
  | wordCount :: wordCounts, best => do
    let candidate ← detailed tokenCounter prompt words wordCount
    refineNeighbourhood wordCounts (improve target best candidate)

def refinePromptUnderTokenTarget (count : ℤ) : Result Candidate :=
  if words = [] then .ok (prompt, count)
  else do
    let (boundary, best) ←
      refineSearch tokenCounter prompt words target 1 words.length 0 (prompt, count)
    let first := max 1 (boundary - 8)
    let stop := min (words.length : ℤ) (boundary + 8) + 1
    refineNeighbourhood tokenCounter prompt words target
      ((List.range (stop - first).toNat).map fun offset => first + offset) best

end Refine

/-! ## Prompts of a test -/

section Materialize

variable (text : PromptText) (detail : Bytes → List String) (floats : CharacterScale)
  (tokenCounter : String → ℤ)

/-- The loop of `_materialize_repeat_prefix`, for at most `steps` steps. -/
def repeatPrefixSearch (render : ℤ → Result String) (target tolerance goal : ℤ) :
    ℕ → ℤ → Option Candidate → Result Candidate
  | 0, _, none => .error (valueError
      "validator tokenizer could not construct the signed repeat prefix")
  | 0, _, some best => .ok best
  | steps + 1, chars, best => do
    let value ← render chars
    let candidate ← measure tokenCounter value "canary tokenizer produced no prefix tokens"
    let best := if candidate.2 ≤ target ∧ Improves best candidate.2 then some candidate else best
    if candidate.2 ≤ target ∧ target - candidate.2 ≤ tolerance then return candidate
    let chars ← floats.scale chars goal candidate.2
    repeatPrefixSearch render target tolerance goal steps (max 256 chars) best

def materializeRepeatPrefix (seed : Bytes) (target : ℤ) (fullContext : Bool) :
    Result Candidate := do
  raiseIf (seed.length ≠ 32 ∨ target ≤ 0)
    (valueError "canary repeat-prefix parameters are invalid")
  let tolerance ← canaryPromptTokenTolerance target
  let goal := target - max 1 (tolerance / 2)
  repeatPrefixSearch floats tokenCounter
    (fun chars => renderSecretSeededPrompt text seed chars fullContext) target tolerance goal 10
    (max 256 (target * 4)) none

/-- The shared prefix of a test and its number of tokens. -/
def repeatPrefixOf (test : CanaryTest) : Result Candidate :=
  if test.repeatPrefixTargetTokens ≠ 0 then do
    let candidate ← materializeRepeatPrefix text floats tokenCounter test.repeatPrefixSeed
      test.repeatPrefixTargetTokens (test.testType = .fullContext)
    raiseIf (candidate.2 ≥ test.targetPromptTokens)
      (valueError "canary repeat prefix leaves no request-specific tail")
    return candidate
  else .ok ("", 0)

def renderCandidate (test : CanaryTest) (repeatPrefix : String) (characterBudget : ℤ) :
    Result String := do
  let unique ← renderSecretSeededPrompt text test.promptSeed characterBudget
    (test.testType = .fullContext) test.minimumObservedOutputTokens
  return if repeatPrefix = "" then unique
    else repeatPrefix ++ "\n\n--- Continued request-specific material ---\n\n" ++ unique

/-- The part of `materialize_canary_prompt` from the seed to the end of the bisection. -/
def searchPrompt (test : CanaryTest) : Result Search := do
  raiseIf (test.promptSeed.length ≠ 32) (valueError "canary prompt seed is unavailable")
  let repeatPrefix ← repeatPrefixOf text floats tokenCounter test
  let tolerance ← canaryPromptTokenTolerance test.targetPromptTokens
  let goal := test.targetPromptTokens - max 1 (tolerance / 2)
  let chars ← floats.initial (test.targetPromptTokens - repeatPrefix.2)
  phases tokenCounter (renderCandidate text test repeatPrefix.1) floats test.targetPromptTokens
    tolerance goal (max 256 chars)

/-- The refinement of a prompt that is too short. -/
def refineShort (test : CanaryTest) (tolerance : ℤ) (search : Search) : Result Candidate :=
  if search.count ≤ test.targetPromptTokens ∧
      test.targetPromptTokens - search.count > tolerance then
    refinePromptUnderTokenTarget tokenCounter search.prompt (detail test.promptSeed)
      test.targetPromptTokens search.count
  else .ok (search.prompt, search.count)

/-- The refinement and the last check of `materialize_canary_prompt`. -/
def finishPrompt (test : CanaryTest) (search : Search) : Result Candidate := do
  let target := test.targetPromptTokens
  let tolerance ← canaryPromptTokenTolerance target
  let candidate ← refineShort detail tokenCounter test tolerance search
  raiseIf (candidate.2 > target ∨ target - candidate.2 > tolerance)
    (valueError ("validator tokenizer could not construct the signed canary context target " ++
      "(target=" ++ toString target ++ ", measured=" ++ toString candidate.2 ++ ")"))
  return candidate

def materializeCanaryPrompt : EStateM PyError CanaryTest Candidate := do
  let test ← get
  if test.targetPromptTokens ≤ 0 then do
    let count := tokenCounter test.prompt
    check (count ≤ 0) (valueError "canary tokenizer produced no prompt tokens")
    modify fun test => { test with measuredPromptTokens := count }
    return (test.prompt, count)
  else do
    let search ← call (searchPrompt text floats tokenCounter test)
    let candidate ← call (finishPrompt detail tokenCounter test search)
    modify fun test => { test with prompt := candidate.1, measuredPromptTokens := candidate.2 }
    return candidate

end Materialize

end Verathos.CanarySchedule
