import ArduinoK210.Lib.Bilinear
import ArduinoK210.Lib.LeastSquares
import Mathlib.LinearAlgebra.Matrix.Determinant.Basic
import Mathlib.Tactic.FinCases
import Mathlib.Tactic.NormNum

/-! The fit of the touch screen's calibration, over any arithmetic in the place of `float`. Over the rational numbers it
is the least-squares affine maps from the raw points to the points on the screen. -/

namespace ArduinoK210.Touch

open Bilinear (truncate)
open Matrix

/-- The numerals are places of three. -/
local instance three_ne : NeZero 3 := ⟨Nat.succ_ne_zero 2⟩

/-- The casts between `int` and `float`, and the constant 0.1. With `-ffast-math` the operations and their order are the
compiler's, so that only this and the operations themselves are known of `float`. -/
class Casts (F : Type) where
  float : Int → F
  int : F → Int
  tenth : F

open Casts (float int tenth)

/-- Exact arithmetic. -/
instance : Casts ℚ := ⟨Int.cast, truncate, 1 / 10⟩

/-- IEEE single precision in the order of the source, where `fcvt.w.s` saturates. -/
instance : Casts Float32 := ⟨fun k => .ofModel (.ofInt k), fun f => f.toModel.toInt32.toInt, .ofModel (.ofScientific 1 (-1))⟩

structure Tscal where
  x : Fin 5 → Int
  xfb : Fin 5 → Int
  y : Fin 5 → Int
  yfb : Fin 5 → Int
  a : Fin 7 → Int

structure Sums (F : Type) where
  n : F
  x : F
  y : F
  x2 : F
  y2 : F
  xy : F

section Arithmetic

variable {F : Type} [Casts F] [Add F] [Sub F] [Mul F] [Div F] [Neg F] [LT F]

namespace Sums

def det (s : Sums F) : F := s.n * (s.x2 * s.y2 - s.xy * s.xy) + s.x * (s.xy * s.y - s.x * s.y2) + s.y * (s.x * s.xy - s.y * s.x2)

def Refused (s : Sums F) : Prop := s.det < tenth ∧ -tenth < s.det

instance [DecidableLT F] (s : Sums F) : Decidable s.Refused := inferInstanceAs (Decidable (_ ∧ _))

/-- The coefficients of x and y and the constant, before they are scaled. -/
def coefficients (z zx zy : F) (s : Sums F) : Fin 3 → F :=
  let a := (s.x2 * s.y2 - s.xy * s.xy) / s.det
  let b := (s.xy * s.y - s.x * s.y2) / s.det
  let c := (s.x * s.xy - s.y * s.x2) / s.det
  let e := (s.n * s.y2 - s.y * s.y) / s.det
  let f := (s.x * s.y - s.n * s.xy) / s.det
  let i := (s.n * s.x2 - s.x * s.x) / s.det
  ![b * z + e * zx + f * zy, c * z + f * zx + i * zy, a * z + b * zx + c * zy]

end Sums

namespace Tscal

def total (F : Type) [Casts F] [Add F] (term : Fin 5 → Int) : F := (List.finRange 5).foldl (fun sum j => sum + float (term j)) (float 0)

def sums (F : Type) [Casts F] [Add F] (x y : Fin 5 → Int) : Sums F where
  n := total F fun _ => 1
  x := total F x
  y := total F y
  x2 := total F fun j => x j * x j
  y2 := total F fun j => y j * y j
  xy := total F fun j => x j * y j

variable (F)

def fit (fb : Fin 5 → Int) (cal : Tscal) : Fin 3 → F :=
  (sums F cal.x cal.y).coefficients (total F fb) (total F fun j => fb j * cal.x j) (total F fun j => fb j * cal.y j)

def scaling : F := float 65536

def performCalibration [DecidableLT F] (cal : Tscal) : Int × Tscal :=
  if (sums F cal.x cal.y).Refused then (0, cal)
  else
    let toX := cal.fit F cal.xfb
    let toY := cal.fit F cal.yfb
    (1, { cal with
      a := ![int (toX 0 * scaling F), int (toX 1 * scaling F), int (toX 2 * scaling F),
        int (toY 0 * scaling F), int (toY 1 * scaling F), int (toY 2 * scaling F), int (scaling F)] })

end Tscal
end Arithmetic

namespace Tscal

private theorem total_exact (term : Fin 5 → Int) : total ℚ term = ∑ j, (term j : ℚ) := by
  rw [Fin.sum_univ_five]
  show ((((((0 : ℤ) : ℚ) + _) + _) + _) + _) + _ = _
  rw [Int.cast_zero, zero_add]
  rfl

private theorem sums_exact (x y : Fin 5 → Int) :
    sums ℚ x y = ⟨∑ _j : Fin 5, 1, ∑ j, (x j : ℚ), ∑ j, (y j : ℚ), ∑ j, ((x j * x j : ℤ) : ℚ), ∑ j, ((y j * y j : ℤ) : ℚ),
      ∑ j, ((x j * y j : ℤ) : ℚ)⟩ := by
  simp only [sums, total_exact, Int.cast_one]

def OnLine (cal : Tscal) : Prop := ∃ p q r : ℚ, (p ≠ 0 ∨ q ≠ 0) ∧ ∀ j, p * cal.x j + q * cal.y j = r

/-- The value of an affine map at a raw point. -/
def affine (fit : Fin 3 → ℚ) (j : Fin 5) (cal : Tscal) : ℚ := fit 0 * cal.x j + fit 1 * cal.y j + fit 2

def error (fb : Fin 5 → Int) (fit : Fin 3 → ℚ) (cal : Tscal) : ℚ := ∑ j, (cal.affine fit j - fb j) ^ 2

/-- The one affine map of least error. -/
def Best (fb : Fin 5 → Int) (fit : Fin 3 → ℚ) (cal : Tscal) : Prop := ∀ other, other ≠ fit → cal.error fb fit < cal.error fb other

def design (cal : Tscal) : Matrix (Fin 5) (Fin 3) ℚ := Matrix.of fun j => ![(cal.x j : ℚ), cal.y j, 1]

variable (cal : Tscal)

private theorem design_mulVec (fit : Fin 3 → ℚ) (j : Fin 5) : (cal.design *ᵥ fit) j = cal.affine fit j := by
  simp only [design, affine, Matrix.mulVec, dotProduct, Fin.sum_univ_three, Matrix.of_apply, Matrix.cons_val]
  ring

private theorem error_eq (fb : Fin 5 → Int) (fit : Fin 3 → ℚ) :
    cal.error fb fit = LeastSquares.squaredError cal.design (fun j => (fb j : ℚ)) fit := by
  unfold error LeastSquares.squaredError
  simp only [design_mulVec]

private theorem gram : cal.designᵀ * cal.design =
    let s := sums ℚ cal.x cal.y
    !![s.x2, s.xy, s.x; s.xy, s.y2, s.y; s.x, s.y, s.n] := by
  rw [sums_exact]
  ext i j
  fin_cases i <;> fin_cases j <;> simp [design, Matrix.mul_apply, mul_comm]

/-- The determinant that is tested is that of the normal equations. -/
theorem det_gram : (cal.designᵀ * cal.design).det = (sums ℚ cal.x cal.y).det := by
  rw [gram, Matrix.det_fin_three, Sums.det]
  simp only [Matrix.of_apply, Matrix.cons_val]
  ring

private theorem det_int : ∃ d : ℤ, (sums ℚ cal.x cal.y).det = d := by
  refine ⟨5 * ((∑ j, cal.x j * cal.x j) * (∑ j, cal.y j * cal.y j) - (∑ j, cal.x j * cal.y j) * ∑ j, cal.x j * cal.y j) +
    (∑ j, cal.x j) * ((∑ j, cal.x j * cal.y j) * (∑ j, cal.y j) - (∑ j, cal.x j) * ∑ j, cal.y j * cal.y j) +
    (∑ j, cal.y j) * ((∑ j, cal.x j) * (∑ j, cal.x j * cal.y j) - (∑ j, cal.y j) * ∑ j, cal.x j * cal.x j), ?_⟩
  simp only [sums_exact, Sums.det, Finset.sum_const, Finset.card_univ, Fintype.card_fin, nsmul_eq_mul, mul_one]
  push_cast
  ring

/-- An integer that is within a tenth of zero is zero. -/
theorem refused_iff : (sums ℚ cal.x cal.y).Refused ↔ (sums ℚ cal.x cal.y).det = 0 := by
  obtain ⟨d, same⟩ := cal.det_int
  unfold Sums.Refused
  rw [same]
  show ((d : ℚ) < 1 / 10 ∧ -(1 / 10) < (d : ℚ)) ↔ (d : ℚ) = 0
  constructor
  · rintro ⟨high, low⟩
    have below : d < 1 := by
      have less : (d : ℚ) < 1 := high.trans (by norm_num)
      exact_mod_cast less
    have above : -1 < d := by
      have more : (-1 : ℚ) < d := lt_trans (by norm_num) low
      exact_mod_cast more
    have zero : d = 0 := by omega
    rw [zero, Int.cast_zero]
  · intro zero
    rw [zero]
    norm_num

theorem det_zero_iff : (sums ℚ cal.x cal.y).det = 0 ↔ cal.OnLine := by
  rw [← det_gram, LeastSquares.det_eq_zero_iff]
  constructor
  · rintro ⟨v, some, vanishes⟩
    have each : ∀ j, cal.affine v j = 0 := fun j => (cal.design_mulVec v j).symm.trans (congrFun vanishes j)
    refine ⟨v 0, v 1, -v 2, ?_, fun j => by linarith [each j, show cal.affine v j = v 0 * cal.x j + v 1 * cal.y j + v 2 from rfl]⟩
    -- a constant alone does not vanish
    by_contra neither
    obtain ⟨zeroX, zeroY⟩ := not_or.mp neither
    rw [not_not] at zeroX zeroY
    have first := each 0
    rw [affine, zeroX, zeroY, zero_mul, zero_mul, zero_add, zero_add] at first
    apply some
    ext i
    fin_cases i
    · exact zeroX
    · exact zeroY
    · exact first
  · rintro ⟨p, q, r, some, line⟩
    refine ⟨![p, q, -r], fun zero => ?_, funext fun j => ?_⟩
    · obtain left | right := some
      · exact left (congrFun zero 0)
      · exact right (congrFun zero 1)
    · rw [design_mulVec]
      show p * cal.x j + q * cal.y j + -r = 0
      rw [line j, add_neg_cancel]

theorem Best.exact {cal : Tscal} {fb : Fin 5 → Int} {fit exact : Fin 3 → ℚ} (best : cal.Best fb fit)
    (meets : ∀ j, cal.affine exact j = fb j) : exact = fit := by
  have through : cal.design *ᵥ exact = fun j => (fb j : ℚ) := funext fun j => by rw [design_mulVec, meets j]
  apply LeastSquares.eq_of_exact _ through
  intro other differs
  rw [← error_eq, ← error_eq]
  exact best other differs

end Tscal
end ArduinoK210.Touch
