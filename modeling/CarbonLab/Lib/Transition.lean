import Mathlib

/-!
# Labelled transitions

States that a partial step function reaches from a start state by labels that a
condition on the state and the label allows, and the invariant rule for them.
-/

namespace CarbonLab.Transition

universe u v

variable {σ : Type u} {lbl : Type v} {step : σ → lbl → Option σ} {allowed : σ → lbl → Prop}
  {start : σ}

/-- The states reached from `start` by steps that are allowed where they are
taken. -/
inductive Reachable (step : σ → lbl → Option σ) (allowed : σ → lbl → Prop) (start : σ) :
    σ → Prop
  | refl : Reachable step allowed start start
  | tail {state next : σ} {label : lbl} (reached : Reachable step allowed start state)
      (permitted : allowed state label) (taken : step state label = some next) :
      Reachable step allowed start next

/-- What holds at the start and is kept by every allowed step holds in every
reachable state. -/
theorem Reachable.invariant {holds : σ → Prop} (initially : holds start)
    (kept : ∀ state label next, holds state → allowed state label →
      step state label = some next → holds next) {state : σ}
    (reached : Reachable step allowed start state) : holds state := by
  induction reached with
  | refl => exact initially
  | tail _ permitted taken ih => exact kept _ _ _ ih permitted taken

/-- Fewer steps allowed, fewer states reached. -/
theorem Reachable.mono {allowed' : σ → lbl → Prop}
    (wider : ∀ state label, allowed state label → allowed' state label) {state : σ}
    (reached : Reachable step allowed start state) : Reachable step allowed' start state := by
  induction reached with
  | refl => exact .refl
  | tail _ permitted taken ih => exact .tail ih (wider _ _ permitted) taken

/-- Step functions that agree on the allowed steps reach the same states. -/
theorem Reachable.congr_step {step' : σ → lbl → Option σ}
    (same : ∀ state label, allowed state label → step state label = step' state label) {state : σ}
    (reached : Reachable step allowed start state) : Reachable step' allowed start state := by
  induction reached with
  | refl => exact .refl
  | tail _ permitted taken ih => exact .tail ih permitted (same _ _ permitted ▸ taken)

/-- Run a list of labels, `none` when one of them cannot be taken or is not
allowed where it is taken. -/
def runLabels (step : σ → lbl → Option σ) (allowed : σ → lbl → Bool) : σ → List lbl → Option σ
  | state, [] => some state
  | state, label :: labels =>
      if allowed state label then
        (step state label).bind fun next => runLabels step allowed next labels
      else none

/-- A list of labels that runs through ends in a reachable state. -/
theorem Reachable.of_runLabels {check : σ → lbl → Bool} {labels : List lbl} {state final : σ}
    (reached : Reachable step (fun state label => check state label = true) start state)
    (ran : runLabels step check state labels = some final) :
    Reachable step (fun state label => check state label = true) start final := by
  induction labels generalizing state with
  | nil =>
      cases ran
      exact reached
  | cons label labels ih =>
      rw [runLabels] at ran
      split at ran
      · next permitted =>
          obtain ⟨next, taken, rest⟩ := Option.bind_eq_some_iff.mp ran
          exact ih (reached.tail permitted taken) rest
      · cases ran

end CarbonLab.Transition
