import Mathlib.Data.Nat.Init
import Mathlib.Data.Set.Card
import Mathlib.Order.Interval.Finset.Nat

/-! Uniform draws below a bound from uniform draws below a modulus: a draw is multiplied by the bound, its value is what the
modulus divides off, and it is rejected if the rest is below what makes the values equally likely. -/

namespace Rejection

variable (modulus count : Nat)

def Accepts (word : Nat) : Prop := modulus % count ≤ word * count % modulus

instance (word : Nat) : Decidable (Accepts modulus count word) := inferInstanceAs (Decidable (_ ≤ _))

def value (word : Nat) : Nat := word * count / modulus

variable {modulus count}

theorem value_lt {word : Nat} (below : word < modulus) (positive : 0 < count) : value modulus count word < count := by
  apply Nat.div_lt_of_lt_mul
  exact Nat.mul_lt_mul_of_pos_right below positive

/-- The words of one value that are accepted, by where their multiples are. -/
theorem accepts_value_iff {word v : Nat} (positive : 0 < modulus) :
    Accepts modulus count word ∧ value modulus count word = v ↔
      v * modulus + modulus % count ≤ word * count ∧ word * count < v * modulus + modulus := by
  have split := Nat.div_add_mod (word * count) modulus
  have rest := Nat.mod_lt (word * count) positive
  unfold Accepts value
  constructor
  · rintro ⟨accepted, rfl⟩
    rw [Nat.mul_comm] at split
    omega
  · rintro ⟨low, high⟩
    have same : word * count / modulus = v := by
      apply (Nat.div_eq_iff positive).mpr
      omega
    rw [same, Nat.mul_comm] at split
    exact ⟨by omega, same⟩

/-- An interval as long as some multiples of `count` has that many of them. -/
theorem multiples_iff {start many : Nat} (positive : 0 < count) (word : Nat) :
    start ≤ word * count ∧ word * count < start + many * count ↔
      (start + count - 1) / count ≤ word ∧ word < (start + count - 1) / count + many := by
  have least (w : Nat) : start ≤ w * count ↔ (start + count - 1) / count ≤ w := by
    rw [← @Nat.lt_succ_iff _ w, Nat.div_lt_iff_lt_mul positive, Nat.succ_mul]
    omega
  refine and_congr (least word) ?_
  generalize (start + count - 1) / count = first at least ⊢
  rw [← not_iff_not, Nat.not_lt, Nat.not_lt]
  by_cases few : word < many
  · have less : word * count < many * count := Nat.mul_lt_mul_of_pos_right few positive
    omega
  · obtain ⟨more, rfl⟩ := Nat.exists_eq_add_of_le (Nat.not_lt.mp few)
    rw [Nat.add_comm many more, Nat.add_mul, Nat.add_le_add_iff_right, Nat.add_le_add_iff_right]
    exact least more

/-- Each value below the bound is that of the same number of accepted words. -/
theorem accepted_ncard (positive : 0 < count) (room : count ≤ modulus) {v : Nat} (below : v < count) :
    Set.ncard {word | word < modulus ∧ Accepts modulus count word ∧ value modulus count word = v} = modulus / count := by
  have whole : modulus % count + modulus / count * count = modulus := by
    rw [Nat.mul_comm]
    exact Nat.mod_add_div modulus count
  have inside (word : Nat) : word < modulus ∧ Accepts modulus count word ∧ value modulus count word = v ↔
      word ∈ Finset.Ico ((v * modulus + modulus % count + count - 1) / count)
        ((v * modulus + modulus % count + count - 1) / count + modulus / count) := by
    rw [accepts_value_iff (Nat.lt_of_lt_of_le positive room), Finset.mem_Ico, ← multiples_iff positive, Nat.add_assoc, whole]
    refine and_iff_right_of_imp fun ⟨_, high⟩ => ?_
    have most : (v + 1) * modulus ≤ count * modulus := Nat.mul_le_mul_right modulus below
    rw [Nat.succ_mul, Nat.mul_comm count] at most
    exact Nat.lt_of_mul_lt_mul_right (Nat.lt_of_lt_of_le high most)
  rw [show {word | word < modulus ∧ Accepts modulus count word ∧ value modulus count word = v} =
    ((Finset.Ico ((v * modulus + modulus % count + count - 1) / count)
      ((v * modulus + modulus % count + count - 1) / count + modulus / count) : Finset Nat) : Set Nat) from Set.ext inside,
    Set.ncard_coe_finset, Nat.card_Ico, Nat.add_sub_cancel_left]

end Rejection
