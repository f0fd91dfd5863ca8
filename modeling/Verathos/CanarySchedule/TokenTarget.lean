import Verathos.CanarySchedule.Materialize

/-!
# A measured prompt is not lost

The search for a prompt near a token target keeps the best undershoot of all candidates that it has
measured (`Tracked`), and it stops at once when the proportional correction hits the window below the
target. So a candidate of the three phases that lies in the window is never dropped, whatever the
tokenizer does between two numbers of characters.

* `phases_spec`: the prompt of the search is one that was measured, and it lies in the window when any
  measured candidate does;
* `materializeCanaryPrompt_spec`: a returned prompt has the returned count, which lies in the window,
  and a raised call has left the test as it was.
-/

namespace Verathos.CanarySchedule

open Method
open Scoring (canaryPromptTokenTolerance canaryPromptMinTokenTolerance)

/-- The count lies below the target by at most the tolerance. -/
def InWindow (target tolerance : ℤ) (candidate : Candidate) : Prop :=
  candidate.2 ≤ target ∧ target - candidate.2 ≤ tolerance

/-- The count is the one of the prompt, which begins with the shared prefix. -/
def Genuine (tokenCounter : String → ℤ) (repeatPrefix : String) (candidate : Candidate) : Prop :=
  candidate.2 = tokenCounter candidate.1 ∧ ∃ rest, candidate.1 = repeatPrefix ++ rest

/-- The best undershoot of a search is a measured one, and no measured undershoot is larger. -/
structure Tracked (tokenCounter : String → ℤ) (repeatPrefix : String) (target : ℤ)
    (search : Search) : Prop where
  genuine : ∀ candidate ∈ search.measured, Genuine tokenCounter repeatPrefix candidate
  best_mem : ∀ best ∈ search.bestUnder, best ∈ search.measured ∧ best.2 ≤ target
  best_max : ∀ candidate ∈ search.measured, candidate.2 ≤ target →
    ∃ best ∈ search.bestUnder, candidate.2 ≤ best.2

/-- The prompt and the count of a search. -/
def Search.current (search : Search) : Candidate := (search.prompt, search.count)

section Phases

variable {tokenCounter : String → ℤ} {render : ℤ → Result String} {floats : CharacterScale}
  {target tolerance goal : ℤ} {repeatPrefix : String} {search search' : Search}
  {candidate : Candidate}

/-! ## Candidates -/

theorem measure_eq_ok {value message : String} :
    measure tokenCounter value message = .ok candidate ↔
      0 < tokenCounter value ∧ candidate = (value, tokenCounter value) := by
  simp only [measure, bind_eq_ok, raiseIf_eq_ok, pure_eq_ok, not_le, exists_const,
    @eq_comm _ _ candidate]

theorem genuine_of_measureAt {chars : ℤ}
    (hrender : ∀ chars value, render chars = .ok value → ∃ rest, value = repeatPrefix ++ rest)
    (h : measureAt tokenCounter render chars = .ok candidate) :
    Genuine tokenCounter repeatPrefix candidate := by
  obtain ⟨value, hvalue, hmeasure⟩ := bind_eq_ok.mp h
  obtain ⟨-, rfl⟩ := measure_eq_ok.mp hmeasure
  exact ⟨rfl, hrender chars value hvalue⟩

theorem Tracked.measured_append (h : Tracked tokenCounter repeatPrefix target search)
    (hgenuine : Genuine tokenCounter repeatPrefix candidate)
    (hmeasured : search'.measured = search.measured ++ [candidate])
    (hbest : search'.bestUnder =
      if candidate.2 ≤ target ∧ Improves search.bestUnder candidate.2 then some candidate
      else search.bestUnder) :
    Tracked tokenCounter repeatPrefix target search' := by
  have hmem : ∀ other, other ∈ search'.measured ↔ other ∈ search.measured ∨ other = candidate := by
    intro other
    rw [hmeasured, List.mem_append, List.mem_singleton]
  constructor
  · intro other hother
    rcases (hmem other).mp hother with hold | rfl
    · exact h.genuine other hold
    · exact hgenuine
  · intro best hmembest
    rw [hbest] at hmembest
    split_ifs at hmembest with hnew
    · obtain rfl := Option.mem_some_iff.mp hmembest
      exact ⟨(hmem _).mpr (.inr rfl), hnew.1⟩
    · obtain ⟨hold, hle⟩ := h.best_mem best hmembest
      exact ⟨(hmem best).mpr (.inl hold), hle⟩
  · intro other hother hle
    rw [hbest]
    split_ifs with hnew
    · refine ⟨candidate, rfl, ?_⟩
      rcases (hmem other).mp hother with hold | rfl
      · -- the old best is below the new one
        obtain ⟨best, hmembest, hbound⟩ := h.best_max other hold hle
        exact hbound.trans (hnew.2 best hmembest).le
      · exact le_rfl
    · rcases (hmem other).mp hother with hold | rfl
      · exact h.best_max other hold hle
      · -- the candidate does not improve on the best
        simp only [Improves, not_and, not_forall, not_lt, exists_prop] at hnew
        exact hnew hle

theorem Tracked.mono (h : Tracked tokenCounter repeatPrefix target search)
    (hmeasured : search'.measured = search.measured) (hbest : search'.bestUnder = search.bestUnder) :
    Tracked tokenCounter repeatPrefix target search' := by
  constructor
  · rw [hmeasured]
    exact h.genuine
  · rw [hmeasured, hbest]
    exact h.best_mem
  · rw [hmeasured, hbest]
    exact h.best_max

/-! ## The proportional correction -/

theorem measured_record :
    (search.record target candidate).measured = search.measured ++ [candidate] := by
  rw [Search.record]
  dsimp only
  split_ifs <;> rfl

theorem current_record : (search.record target candidate).current = candidate := by
  rw [Search.record]
  dsimp only
  split_ifs <;> rfl

theorem bestUnder_record : (search.record target candidate).bestUnder =
    if candidate.2 ≤ target ∧ Improves search.bestUnder candidate.2 then some candidate
    else search.bestUnder := by
  rw [Search.record]
  dsimp only
  split_ifs <;> rfl

/-- What the first phase leaves: it ends in the window, or it has measured no candidate there. -/
structure Corrected (tokenCounter : String → ℤ) (repeatPrefix : String) (target tolerance : ℤ)
    (search : Search) : Prop where
  tracked : Tracked tokenCounter repeatPrefix target search
  current : search.current ∈ search.measured
  outcome : InWindow target tolerance search.current ∨
    ∀ candidate ∈ search.measured, ¬ InWindow target tolerance candidate

variable {steps : ℕ}

theorem corrected_of_proportional
    (hrender : ∀ chars value, render chars = .ok value → ∃ rest, value = repeatPrefix ++ rest)
    (htracked : Tracked tokenCounter repeatPrefix target search)
    (hnone : ∀ candidate ∈ search.measured, ¬ InWindow target tolerance candidate)
    (hcurrent : steps = 0 → search.current ∈ search.measured)
    (h : proportional tokenCounter render floats target tolerance goal steps search =
      .ok search') : Corrected tokenCounter repeatPrefix target tolerance search' := by
  induction steps generalizing search with
  | zero =>
    obtain rfl := pure_eq_ok.mp h
    exact ⟨htracked, hcurrent rfl, .inr hnone⟩
  | succ steps ih =>
    simp only [proportional, bind_eq_ok] at h
    obtain ⟨candidate, hcandidate, h⟩ := h
    have hgenuine := genuine_of_measureAt hrender hcandidate
    have hnext : Tracked tokenCounter repeatPrefix target (search.record target candidate) :=
      htracked.measured_append hgenuine measured_record bestUnder_record
    have hmem : (search.record target candidate).current ∈
        (search.record target candidate).measured := by
      rw [measured_record, current_record]
      exact List.mem_append_right _ (List.mem_singleton_self candidate)
    split_ifs at h with hwindow
    · -- the candidate is in the window: the search stops
      obtain rfl := pure_eq_ok.mp h
      exact ⟨hnext, hmem, .inl hwindow⟩
    · obtain ⟨chars, -, h⟩ := bind_eq_ok.mp h
      refine ih ?_ ?_ ?_ h
      · exact hnext.mono rfl rfl
      · intro other hother hin
        have hcases : other ∈ search.measured ++ [candidate] := measured_record ▸ hother
        rcases List.mem_append.mp hcases with hold | hnew
        · exact hnone other hold hin
        · obtain rfl := List.mem_singleton.mp hnew
          have hsame : (search.record target other).current = other := current_record
          rw [← hsame] at hin
          exact hwindow hin
      · exact fun _ => hmem

/-! ## The bracketing and the bisection -/

theorem tracked_of_bracket {low high : ℤ}
    (hrender : ∀ chars value, render chars = .ok value → ∃ rest, value = repeatPrefix ++ rest)
    (htracked : Tracked tokenCounter repeatPrefix target search) (hbest : search.bestUnder = none)
    (h : bracket tokenCounter render target steps low high search = .ok search') :
    Tracked tokenCounter repeatPrefix target search' ∧ search'.current = search.current ∧
      search.measured ⊆ search'.measured := by
  induction steps generalizing low high search with
  | zero =>
    obtain rfl := pure_eq_ok.mp h
    exact ⟨htracked, rfl, List.Subset.refl _⟩
  | succ steps ih =>
    rw [bracket] at h
    split_ifs at h with hlow
    · obtain rfl := pure_eq_ok.mp h
      exact ⟨htracked, rfl, List.Subset.refl _⟩
    · obtain ⟨candidate, hcandidate, h⟩ := bind_eq_ok.mp h
      have hgenuine := genuine_of_measureAt hrender hcandidate
      have himproves : Improves search.bestUnder candidate.2 := by
        rw [hbest]
        exact fun _ hmem => nomatch hmem
      dsimp only at h
      split_ifs at h with hunder
      · -- the first undershoot ends the halving
        obtain rfl := pure_eq_ok.mp h
        refine ⟨htracked.measured_append hgenuine rfl ?_, rfl, List.subset_append_left _ _⟩
        rw [if_pos ⟨hunder, himproves⟩]
      · have hnext : Tracked tokenCounter repeatPrefix target { search with
            overChars := some (max 256 (low / 2))
            measured := search.measured ++ [candidate] } :=
          htracked.measured_append hgenuine rfl (by rw [if_neg fun hnot => hunder hnot.1])
        obtain ⟨hrest, hcurrent, hsubset⟩ := ih hnext hbest h
        exact ⟨hrest, hcurrent, fun _ hmem => hsubset (List.mem_append_left _ hmem)⟩

theorem tracked_of_bisect {low high : ℤ}
    (hrender : ∀ chars value, render chars = .ok value → ∃ rest, value = repeatPrefix ++ rest)
    (htracked : Tracked tokenCounter repeatPrefix target search)
    (h : bisect tokenCounter render target steps low high search = .ok search') :
    Tracked tokenCounter repeatPrefix target search' ∧ search'.current = search.current ∧
      search.measured ⊆ search'.measured := by
  induction steps generalizing low high search with
  | zero =>
    obtain rfl := pure_eq_ok.mp h
    exact ⟨htracked, rfl, List.Subset.refl _⟩
  | succ steps ih =>
    rw [bisect] at h
    split_ifs at h with hclose
    · obtain rfl := pure_eq_ok.mp h
      exact ⟨htracked, rfl, List.Subset.refl _⟩
    · obtain ⟨candidate, hcandidate, h⟩ := bind_eq_ok.mp h
      have hgenuine := genuine_of_measureAt hrender hcandidate
      dsimp only at h
      split_ifs at h with hunder himproves
      · have hnext : Tracked tokenCounter repeatPrefix target { search with
            bestUnder := some candidate
            measured := search.measured ++ [candidate] } :=
          htracked.measured_append hgenuine rfl (by rw [if_pos ⟨hunder, himproves⟩])
        obtain ⟨hrest, hcurrent, hsubset⟩ := ih hnext h
        exact ⟨hrest, hcurrent, fun _ hmem => hsubset (List.mem_append_left _ hmem)⟩
      all_goals
        -- the best undershoot stays
        have hnext : Tracked tokenCounter repeatPrefix target { search with
            measured := search.measured ++ [candidate] } :=
          htracked.measured_append hgenuine rfl (by rw [if_neg (by tauto)])
        obtain ⟨hrest, hcurrent, hsubset⟩ := ih hnext h
        exact ⟨hrest, hcurrent, fun _ hmem => hsubset (List.mem_append_left _ hmem)⟩

/-! ## The three phases together -/

/-- The prompt of a search was measured, and it lies in the window when a measured one does. -/
structure Kept (tokenCounter : String → ℤ) (repeatPrefix : String) (target tolerance : ℤ)
    (search : Search) : Prop where
  genuine : Genuine tokenCounter repeatPrefix search.current
  in_window : ∀ candidate ∈ search.measured, InWindow target tolerance candidate →
    InWindow target tolerance search.current

theorem kept_takeBest (htracked : Tracked tokenCounter repeatPrefix target search)
    (hcurrent : search.current ∈ search.measured) :
    Kept tokenCounter repeatPrefix target tolerance search.takeBest := by
  cases hbest : search.bestUnder with
  | none =>
    have hsame : search.takeBest = search := by rw [Search.takeBest, hbest]
    rw [hsame]
    refine ⟨htracked.genuine _ hcurrent, fun candidate hmem hin => ?_⟩
    obtain ⟨best, hsome, -⟩ := htracked.best_max candidate hmem hin.1
    rw [hbest] at hsome
    exact nomatch hsome
  | some best =>
    have htake : search.takeBest.current = best ∧ search.takeBest.measured = search.measured := by
      rw [Search.takeBest, hbest]
      exact ⟨rfl, rfl⟩
    obtain ⟨hmem, hle⟩ := htracked.best_mem best hbest
    constructor
    · rw [htake.1]
      exact htracked.genuine best hmem
    · rw [htake.1, htake.2]
      intro candidate hcandidate hin
      obtain ⟨best', hsome, hbound⟩ := htracked.best_max candidate hcandidate hin.1
      obtain rfl : best = best' := Option.some.inj (hbest.symm.trans hsome)
      have hdistance := hin.2
      exact ⟨hle, by omega⟩

/-- A search that leaves the second phase is in the window, or above the target, or it has measured no
candidate in the window. -/
theorem kept_of_bisectPhase
    (hrender : ∀ chars value, render chars = .ok value → ∃ rest, value = repeatPrefix ++ rest)
    (htracked : Tracked tokenCounter repeatPrefix target search)
    (hcurrent : search.current ∈ search.measured)
    (houtcome : search.count > target ∨ InWindow target tolerance search.current ∨
      ∀ candidate ∈ search.measured, ¬ InWindow target tolerance candidate)
    (h : bisectPhase tokenCounter render target tolerance search = .ok search') :
    Kept tokenCounter repeatPrefix target tolerance search' := by
  -- without a bisection the search takes its best candidate, or it ends at or below the target
  have hplain : (if search.count > target then (.ok search.takeBest : Result Search)
      else .ok search) = .ok search' → Kept tokenCounter repeatPrefix target tolerance search' := by
    intro hplain
    split_ifs at hplain with hover
    · obtain rfl := Except.ok.inj hplain
      exact kept_takeBest htracked hcurrent
    · obtain rfl := Except.ok.inj hplain
      refine ⟨htracked.genuine _ hcurrent, fun candidate hmem hin => ?_⟩
      rcases houtcome.resolve_left hover with hwindow | hnone
      · exact hwindow
      · exact absurd hin (hnone candidate hmem)
  rw [bisectPhase] at h
  split at h
  · rename_i underChars overChars _ _
    split_ifs at h with hbisect hover
    · obtain ⟨bisected, hbisected, hok⟩ := bind_eq_ok.mp h
      obtain rfl := pure_eq_ok.mp hok
      obtain ⟨hnext, hsame, hsubset⟩ := tracked_of_bisect hrender htracked hbisected
      exact kept_takeBest hnext (hsame ▸ hsubset hcurrent)
    · exact hplain (by rw [if_pos hover]; exact h)
    · exact hplain (by rw [if_neg hover]; exact h)
  · exact hplain h

theorem phases_spec {chars : ℤ}
    (hrender : ∀ chars value, render chars = .ok value → ∃ rest, value = repeatPrefix ++ rest)
    (h : phases tokenCounter render floats target tolerance goal chars = .ok search') :
    Kept tokenCounter repeatPrefix target tolerance search' := by
  simp only [phases, bind_eq_ok] at h
  obtain ⟨corrected, hcorrected, bracketed, hbracketed, h⟩ := h
  have hstart : Tracked tokenCounter repeatPrefix target { chars : Search } :=
    ⟨by simp, by simp, by simp⟩
  have hcorrected : Corrected tokenCounter repeatPrefix target tolerance corrected := by
    refine corrected_of_proportional hrender hstart (fun _ hmem => ?_) (fun hzero => ?_) hcorrected
    · cases hmem
    · cases hzero
  obtain ⟨htracked, hcurrent, houtcome⟩ := hcorrected
  rw [bracketPhase] at hbracketed
  split_ifs at hbracketed with hovershoots
  · obtain ⟨hnext, hsame, hsubset⟩ :=
      tracked_of_bracket hrender htracked hovershoots.1 hbracketed
    refine kept_of_bisectPhase hrender hnext (hsame ▸ hsubset hcurrent) (.inl ?_) h
    rw [show bracketed.count = corrected.count from congrArg Prod.snd hsame]
    exact hovershoots.2
  · obtain rfl := Except.ok.inj hbracketed
    exact kept_of_bisectPhase hrender htracked hcurrent (.inr houtcome) h

end Phases

/-! ## The refinement -/

section Refine

variable {tokenCounter : String → ℤ} {repeatPrefix prompt : String} {words : List String}
  {target : ℤ} {best candidate : Candidate}

theorem genuine_of_detailed {wordCount : ℤ} (hprompt : ∃ rest, prompt = repeatPrefix ++ rest)
    (h : detailed tokenCounter prompt words wordCount = .ok candidate) :
    Genuine tokenCounter repeatPrefix candidate := by
  obtain ⟨-, rfl⟩ := measure_eq_ok.mp h
  obtain ⟨rest, rfl⟩ := hprompt
  refine ⟨rfl, rest ++ ("\n\nAdditional source detail: " ++
    " ".intercalate (words.take wordCount.toNat) ++ "."), ?_⟩
  simp only [String.append_assoc]

theorem genuine_improve (hbest : Genuine tokenCounter repeatPrefix best)
    (hcandidate : Genuine tokenCounter repeatPrefix candidate) :
    Genuine tokenCounter repeatPrefix (improve target best candidate) := by
  rw [improve]
  split_ifs
  · exact hcandidate
  · exact hbest

theorem genuine_of_refineSearch {low high boundary : ℤ} {result : ℤ × Candidate}
    (hprompt : ∃ rest, prompt = repeatPrefix ++ rest)
    (hbest : Genuine tokenCounter repeatPrefix best)
    (h : refineSearch tokenCounter prompt words target low high boundary best = .ok result) :
    Genuine tokenCounter repeatPrefix result.2 := by
  induction low, high, boundary, best using refineSearch.induct target with
  | case1 low high boundary best hle middle ih₁ ih₂ =>
    rw [refineSearch, if_pos hle] at h
    obtain ⟨candidate, hcandidate, h⟩ := bind_eq_ok.mp h
    have hgenuine := genuine_of_detailed hprompt hcandidate
    split_ifs at h with hunder
    · exact ih₁ candidate (genuine_improve hbest hgenuine) h
    · exact ih₂ hbest h
  | case2 low high boundary best hgt =>
    rw [refineSearch, if_neg hgt] at h
    obtain rfl := Except.ok.inj h
    exact hbest

theorem genuine_of_refineNeighbourhood {wordCounts : List ℤ}
    (hprompt : ∃ rest, prompt = repeatPrefix ++ rest)
    (hbest : Genuine tokenCounter repeatPrefix best)
    (h : refineNeighbourhood tokenCounter prompt words target wordCounts best = .ok candidate) :
    Genuine tokenCounter repeatPrefix candidate := by
  induction wordCounts generalizing best with
  | nil =>
    obtain rfl := pure_eq_ok.mp h
    exact hbest
  | cons wordCount wordCounts ih =>
    obtain ⟨next, hnext, h⟩ := bind_eq_ok.mp h
    exact ih (genuine_improve hbest (genuine_of_detailed hprompt hnext)) h

theorem genuine_of_refine {count : ℤ} (hcurrent : Genuine tokenCounter repeatPrefix (prompt, count))
    (h : refinePromptUnderTokenTarget tokenCounter prompt words target count = .ok candidate) :
    Genuine tokenCounter repeatPrefix candidate := by
  rw [refinePromptUnderTokenTarget] at h
  split_ifs at h with hwords
  · obtain rfl := Except.ok.inj h
    exact hcurrent
  · obtain ⟨⟨boundary, best⟩, hsearch, h⟩ := bind_eq_ok.mp h
    exact genuine_of_refineNeighbourhood hcurrent.2
      (genuine_of_refineSearch hcurrent.2 hcurrent hsearch) h

end Refine

/-! ## Prompts of a test -/

/-- The value of `canary_prompt_token_tolerance_v3` for a positive target. -/
def tolerance (target : ℤ) : ℤ := max canaryPromptMinTokenTolerance (target / 500)

theorem canaryPromptTokenTolerance_eq_ok {target value : ℤ} :
    canaryPromptTokenTolerance target = .ok value ↔ 0 < target ∧ value = tolerance target := by
  simp only [canaryPromptTokenTolerance, tolerance, bind_eq_ok, raiseIf_eq_ok, pure_eq_ok, not_le,
    exists_const, @eq_comm _ _ value]

section Materialize

variable {text : PromptText} {detail : Bytes → List String} {floats : CharacterScale}
  {tokenCounter : String → ℤ} {test : CanaryTest} {search : Search} {candidate : Candidate}

theorem kept_of_searchPrompt (h : searchPrompt text floats tokenCounter test = .ok search) :
    ∃ repeatPrefix, repeatPrefixOf text floats tokenCounter test = .ok repeatPrefix ∧
      Kept tokenCounter repeatPrefix.1 test.targetPromptTokens (tolerance test.targetPromptTokens)
        search := by
  simp only [searchPrompt, bind_eq_ok, canaryPromptTokenTolerance_eq_ok] at h
  obtain ⟨-, -, repeatPrefix, hprefix, _, ⟨-, rfl⟩, chars, -, h⟩ := h
  refine ⟨repeatPrefix, hprefix, phases_spec (fun chars value hvalue => ?_) h⟩
  obtain ⟨unique, -, hvalue⟩ := bind_eq_ok.mp hvalue
  obtain rfl := pure_eq_ok.mp hvalue
  split_ifs with hempty
  · exact ⟨unique, by rw [hempty, String.empty_append]⟩
  · exact ⟨_, String.append_assoc⟩

/-- A finished prompt is measured and in the window. A search that is in the window is finished. -/
theorem finishPrompt_spec {repeatPrefix : String} (htarget : 0 < test.targetPromptTokens)
    (hcurrent : Genuine tokenCounter repeatPrefix search.current) :
    (∀ candidate, finishPrompt detail tokenCounter test search = .ok candidate →
        Genuine tokenCounter repeatPrefix candidate ∧
          InWindow test.targetPromptTokens (tolerance test.targetPromptTokens) candidate) ∧
      (InWindow test.targetPromptTokens (tolerance test.targetPromptTokens) search.current →
        finishPrompt detail tokenCounter test search = .ok search.current) := by
  constructor
  · intro candidate h
    simp only [finishPrompt, bind_eq_ok, canaryPromptTokenTolerance_eq_ok, raiseIf_eq_ok,
      pure_eq_ok, not_or, not_lt, gt_iff_lt] at h
    obtain ⟨_, ⟨-, rfl⟩, _, hrefined, -, hwindow, rfl⟩ := h
    refine ⟨?_, hwindow⟩
    rw [refineShort] at hrefined
    split_ifs at hrefined with hshort
    · exact genuine_of_refine hcurrent hrefined
    · obtain rfl := Except.ok.inj hrefined
      exact hcurrent
  · intro hwindow
    have hle : search.count ≤ test.targetPromptTokens := hwindow.1
    have hdistance : test.targetPromptTokens - search.count ≤ tolerance test.targetPromptTokens :=
      hwindow.2
    simp only [finishPrompt, bind_eq_ok, canaryPromptTokenTolerance_eq_ok, raiseIf_eq_ok,
      pure_eq_ok]
    refine ⟨_, ⟨htarget, rfl⟩, search.current, ?_, (), ?_, rfl⟩
    · rw [refineShort, if_neg (by omega)]
      rfl
    · show ¬ (search.count > test.targetPromptTokens ∨
        test.targetPromptTokens - search.count > tolerance test.targetPromptTokens)
      omega

/-- A prompt that is returned has the returned count, which is at most the target and below it by at
most the tolerance; it begins with the shared prefix where one is requested, and the test holds both.
A call that raises leaves the test as it was, and then no candidate of the three phases lay in the
window. -/
theorem materializeCanaryPrompt_spec (text : PromptText) (detail : Bytes → List String)
    (floats : CharacterScale) (tokenCounter : String → ℤ) (test : CanaryTest)
    (htarget : 0 < test.targetPromptTokens) :
    (∀ candidate test',
      Returns (materializeCanaryPrompt text detail floats tokenCounter) test candidate test' →
        candidate.2 = tokenCounter candidate.1 ∧
        InWindow test.targetPromptTokens (tolerance test.targetPromptTokens) candidate ∧
        (test.repeatPrefixTargetTokens ≠ 0 → ∃ repeatPrefix,
          materializeRepeatPrefix text floats tokenCounter test.repeatPrefixSeed
            test.repeatPrefixTargetTokens (test.testType = .fullContext) = .ok repeatPrefix ∧
          ∃ rest, candidate.1 = repeatPrefix.1 ++ rest) ∧
        test' = { test with prompt := candidate.1, measuredPromptTokens := candidate.2 }) ∧
      ∀ e test', Raises (materializeCanaryPrompt text detail floats tokenCounter) test e test' →
        test' = test ∧ ∀ search, searchPrompt text floats tokenCounter test = .ok search →
          ∀ candidate ∈ search.measured, ¬ InWindow test.targetPromptTokens
            (tolerance test.targetPromptTokens) candidate := by
  have hpositive : ¬ test.targetPromptTokens ≤ 0 := not_le.mpr htarget
  constructor
  · intro candidate test' h
    simp only [materializeCanaryPrompt, returns_bind, returns_get] at h
    obtain ⟨_, _, ⟨rfl, rfl⟩, h⟩ := h
    rw [if_neg hpositive] at h
    simp only [returns_bind, returns_call, returns_modify, returns_pure] at h
    obtain ⟨search, _, ⟨hsearch, rfl⟩, result, _, ⟨hresult, rfl⟩, _, _, rfl, rfl, rfl⟩ := h
    obtain ⟨repeatPrefix, hprefix, hkept⟩ := kept_of_searchPrompt hsearch
    obtain ⟨hgenuine, hwindow⟩ := (finishPrompt_spec htarget hkept.genuine).1 _ hresult
    refine ⟨hgenuine.1, hwindow, fun hrequested => ⟨repeatPrefix, ?_, hgenuine.2⟩, rfl⟩
    rw [repeatPrefixOf, if_pos hrequested] at hprefix
    simp only [bind_eq_ok, pure_eq_ok] at hprefix
    obtain ⟨_, hmaterialized, -, -, rfl⟩ := hprefix
    exact hmaterialized
  · intro e test' h
    simp only [materializeCanaryPrompt, raises_bind, raises_get, returns_get, false_or] at h
    obtain ⟨_, _, ⟨rfl, rfl⟩, h⟩ := h
    rw [if_neg hpositive] at h
    simp only [raises_bind, raises_call, returns_call, raises_modify, raises_pure, and_false,
      exists_false, or_false] at h
    rcases h with ⟨hsearch, rfl⟩ | ⟨search, _, ⟨hsearch, rfl⟩, hfinish, rfl⟩
    · refine ⟨rfl, fun search hok => ?_⟩
      rw [hsearch] at hok
      cases hok
    · refine ⟨rfl, fun search' hok candidate hmem hin => ?_⟩
      obtain rfl := Except.ok.inj (hsearch.symm.trans hok)
      -- a candidate in the window would have been finished
      obtain ⟨repeatPrefix, -, hkept⟩ := kept_of_searchPrompt hsearch
      have hfinished : finishPrompt detail tokenCounter test search = .ok search.current :=
        (finishPrompt_spec htarget hkept.genuine).2 (hkept.in_window candidate hmem hin)
      rw [hfinish] at hfinished
      cases hfinished

/-- A test with a target of 600 tokens. -/
def targetedTest : CanaryTest where
  minerAddress := "0xa"
  minerEndpoint := "http"
  modelId := "m"
  modelIndex := 0
  maxContextLen := 4096
  targetBlock := 0
  testIndex := 0
  testType := .small
  prompt := ""
  maxNewTokens := 1
  verifyProof := false
  targetPromptTokens := 600
  promptSeed := List.replicate 32 0

/-- Scaling without rounding. -/
def exactScale : CharacterScale := ⟨fun tokens => .ok (tokens * 4), fun chars goal count =>
  .ok (chars * goal / count)⟩

/-- A text of a thousand tokens is corrected to the target, one of 590 tokens is taken. -/
theorem materializeCanaryPrompt_spec_targeted :
    let text : PromptText := fun _ chars _ _ => if chars < 2400 then "short" else "long"
    let tokenCounter : String → ℤ := fun value => if value = "short" then 590 else 1000
    let method := materializeCanaryPrompt text (fun _ => []) exactScale tokenCounter
    succeeds method targetedTest = true ∧
      ∀ candidate test', Returns method targetedTest candidate test' →
        candidate.2 = tokenCounter candidate.1 ∧ InWindow 600 (tolerance 600) candidate := by
  intro text tokenCounter method
  refine ⟨by decide +kernel, fun candidate test' h => ?_⟩
  obtain ⟨hcount, hwindow, -⟩ := (materializeCanaryPrompt_spec text (fun _ => []) exactScale
    tokenCounter targetedTest (by decide)).1 candidate test' h
  exact ⟨hcount, hwindow⟩

end Materialize

end Verathos.CanarySchedule
