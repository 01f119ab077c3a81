import Mathlib.Logic.Basic

/-! Infinite runs of several actors, each of which acts again and again. A rank that no step raises goes down when the
actor that it waits for acts, and at its end the work is done. -/

namespace Fair

universe u v

variable {σ : Type u} {ι : Type v}

/-- The state after the first acts of a schedule. -/
def after (step : ι → σ → σ) (schedule : Nat → ι) (state : σ) : Nat → σ
  | 0 => state
  | count + 1 => step (schedule count) (after step schedule state count)

/-- Nobody is left out for good. -/
def Everyone (schedule : Nat → ι) : Prop := ∀ actor time, ∃ later, time ≤ later ∧ schedule later = actor

variable {step : ι → σ → σ} {schedule : Nat → ι} {state : σ}

theorem invariant {invariant : σ → Prop} (preserves : ∀ actor state, invariant state → invariant (step actor state))
    (schedule : Nat → ι) (initial : invariant state) (time : Nat) : invariant (after step schedule state time) := by
  induction time with
  | zero => exact initial
  | succ time ih => exact preserves _ _ ih

theorem stays {time : Nat} (still : ∀ actor, step actor (after step schedule state time) = after step schedule state time)
    {later : Nat} (order : time ≤ later) : after step schedule state later = after step schedule state time := by
  obtain ⟨more, rfl⟩ := Nat.exists_eq_add_of_le order
  clear order
  induction more with
  | zero => rfl
  | succ more ih =>
    show step _ (after step schedule state (time + more)) = _
    rw [ih]
    exact still _

/-- How the rank goes down. `helper` is the actor whose turn makes it go down. Any other either makes it go down as well
or leaves it, and then the helper is the same. -/
structure Progress (step : ι → σ → σ) (invariant done : σ → Prop) (rank : σ → Nat) (helper : σ → ι) : Prop where
  preserves : ∀ actor state, invariant state → invariant (step actor state)
  helps : ∀ state, invariant state → ¬done state → rank (step (helper state) state) < rank state
  keeps : ∀ actor state, invariant state → ¬done state →
    rank (step actor state) < rank state ∨ rank (step actor state) = rank state ∧ helper (step actor state) = helper state

theorem Progress.reaches {invariant done : σ → Prop} {rank : σ → Nat} {helper : σ → ι}
    (progress : Progress step invariant done rank helper) (everyone : Everyone schedule) (initial : invariant state) :
    ∃ time, done (after step schedule state time) := by
  have holds := Fair.invariant progress.preserves schedule initial
  -- The induction is on the rank, and inside it on how long the helper is still to wait for.
  have eventually : ∀ bound time, rank (after step schedule state time) ≤ bound →
      ∃ later, done (after step schedule state later) := by
    intro bound
    induction bound using Nat.strongRecOn with
    | ind bound ih =>
      intro time small
      obtain ⟨turn, order, acts⟩ := everyone (helper (after step schedule state time)) time
      obtain ⟨wait, rfl⟩ := Nat.exists_eq_add_of_le order
      have lower : ∀ next, rank (after step schedule state next) < bound → ∃ later, done (after step schedule state later) :=
        fun next less => ih _ less next (Nat.le_refl _)
      induction wait generalizing time with
      | zero =>
        by_cases finished : done (after step schedule state time)
        · exact ⟨time, finished⟩
        · have less := progress.helps _ (holds time) finished
          apply lower (time + 1)
          rw [after, show schedule time = _ from acts]
          exact Nat.lt_of_lt_of_le less small
      | succ wait step_ih =>
        by_cases finished : done (after step schedule state time)
        · exact ⟨time, finished⟩
        · rcases progress.keeps (schedule time) _ (holds time) finished with less | ⟨same, helper_same⟩
          · exact lower (time + 1) (Nat.lt_of_lt_of_le less small)
          · have shifted : time + 1 + wait = time + (wait + 1) := by omega
            apply step_ih (time + 1)
            · rw [after, same]
              exact small
            · omega
            · rw [shifted, after, helper_same]
              exact acts
  exact eventually _ 0 (Nat.le_refl _)

end Fair
