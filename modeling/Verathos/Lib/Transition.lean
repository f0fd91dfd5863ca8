import Mathlib.Tactic

/-!
# Guarded transition systems

A transition system with a partial step function, and the states that it reaches by steps that meet
a condition on the state before the step. An invariant that holds initially and that every such step
preserves holds of every reachable state (`Reachable.invariant`). The function `run` executes a list
of actions, which gives reachability by evaluation (`reachable_of_run`).
-/

namespace Transition

variable {σ α : Type*}

/-- The states reached from `initial` by steps whose action meets `condition` in the state before. -/
inductive Reachable (step : α → σ → Option σ) (condition : α → σ → Prop) (initial : σ) : σ → Prop
  | refl : Reachable step condition initial initial
  | step {s s' : σ} {action : α} (hs : Reachable step condition initial s)
      (hcondition : condition action s) (hstep : step action s = some s') :
      Reachable step condition initial s'

/-- An unconditional step. -/
def always (_ : α) (_ : σ) : Prop := True

variable {step : α → σ → Option σ} {condition : α → σ → Prop} {initial s s' : σ}

theorem Reachable.invariant {I : σ → Prop} (hs : Reachable step condition initial s)
    (hinitial : I initial)
    (hstep : ∀ action s s', I s → condition action s → step action s = some s' → I s') : I s := by
  induction hs with
  | refl => exact hinitial
  | step _ hcondition h ih => exact hstep _ _ _ ih hcondition h

theorem Reachable.mono {condition' : α → σ → Prop} (hs : Reachable step condition initial s)
    (h : ∀ action s, condition action s → condition' action s) :
    Reachable step condition' initial s := by
  induction hs with
  | refl => exact .refl
  | step _ hcondition hstep ih => exact .step ih (h _ _ hcondition) hstep

/-- Execute a list of actions. -/
def run (step : α → σ → Option σ) : List α → σ → Option σ
  | [], s => some s
  | action :: actions, s => (step action s).bind (run step actions)

theorem Reachable.run (hs : Reachable step always initial s) {actions : List α}
    (h : run step actions s = some s') : Reachable step always initial s' := by
  induction actions generalizing s with
  | nil =>
    obtain rfl := Option.some.inj h
    exact hs
  | cons action actions ih =>
    obtain ⟨s₁, hs₁, hrun⟩ := Option.bind_eq_some_iff.mp h
    exact ih (.step hs trivial hs₁) hrun

theorem reachable_of_run {actions : List α} (h : run step actions initial = some s) :
    Reachable step always initial s :=
  Reachable.run .refl h

end Transition
