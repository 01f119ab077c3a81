import Mathlib.Algebra.Order.BigOperators.Ring.Finset
import Mathlib.Data.Matrix.Mul
import Mathlib.LinearAlgebra.Matrix.DotProduct
import Mathlib.LinearAlgebra.Matrix.ToLinearEquiv
import Mathlib.Tactic.Linarith
import Mathlib.Tactic.Ring

/-! Linear least squares. The solution of the normal equations is the only best fit when no
combination of the columns vanishes, and just then the determinant of the equations is not zero. -/

namespace LeastSquares

open Matrix

universe u v w

variable {K : Type u} {ι : Type v} {κ : Type w} [Field K] [Fintype ι] [Fintype κ]

def squaredError (design : Matrix ι κ K) (target : ι → K) (fit : κ → K) : K := ∑ i, ((design *ᵥ fit) i - target i) ^ 2

variable {design : Matrix ι κ K} {target : ι → K} {fit : κ → K}

variable [LinearOrder K] [IsStrictOrderedRing K]

/-- An exact fit is the best one. -/
theorem eq_of_exact (best : ∀ other, other ≠ fit → squaredError design target fit < squaredError design target other) {exact : κ → K}
    (meets : design *ᵥ exact = target) : exact = fit := by
  by_contra differs
  have less := best exact differs
  have zero : squaredError design target exact = 0 := by
    unfold squaredError
    rw [meets]
    simp
  rw [zero] at less
  exact absurd less (not_lt.mpr (Finset.sum_nonneg fun i _ => sq_nonneg _))

theorem det_eq_zero_iff [DecidableEq κ] : (designᵀ * design).det = 0 ↔ ∃ v, v ≠ 0 ∧ design *ᵥ v = 0 := by
  rw [← exists_mulVec_eq_zero_iff]
  refine exists_congr fun v => and_congr_right fun _ => ⟨fun gram => ?_, fun columns => ?_⟩
  · have norm : (design *ᵥ v) ⬝ᵥ (design *ᵥ v) = 0 := by
      rw [dotProduct_mulVec, ← mulVec_transpose, mulVec_mulVec, gram, zero_dotProduct]
    exact dotProduct_self_eq_zero.mp norm
  · rw [← mulVec_mulVec, columns, mulVec_zero]

end LeastSquares
