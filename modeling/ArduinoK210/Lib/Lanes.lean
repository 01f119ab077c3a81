import Mathlib.Data.Nat.Bitwise

/-! Two numbers of sixteen bits in one word of 32. Sums and products that stay below the lane leave the other one alone, and so
does a difference that is taken lane by lane. -/

namespace Lanes

/-- The word holds `low` and `high`, one in each half. -/
structure Holds (word : UInt32) (low high : Nat) : Prop where
  value : word.toNat = low + 65536 * high
  low : low < 65536
  high : high < 65536

theorem Holds.mul {word : UInt32} {a b : Nat} (holds : Holds word a b) (factor : UInt32) (low : a * factor.toNat < 65536)
    (high : b * factor.toNat < 65536) : Holds (word * factor) (a * factor.toNat) (b * factor.toNat) := by
  refine ⟨?_, low, high⟩
  rw [UInt32.toNat_mul, holds.value, Nat.add_mul, Nat.mul_assoc]
  omega

theorem and_low (word : UInt32) : (word &&& 0xffff).toNat = word.toNat % 65536 := by
  rw [UInt32.toNat_and]
  exact Nat.and_two_pow_sub_one_eq_mod word.toNat 16

theorem and_high (word : UInt32) : (word &&& 0xffff0000).toNat = 65536 * (word.toNat / 65536) := by
  have bound := word.toNat_lt
  have shifted : 65536 * (word.toNat / 65536) = word.toNat >>> 16 <<< 16 := by
    rw [Nat.shiftRight_eq_div_pow, Nat.shiftLeft_eq, Nat.mul_comm]
  rw [shifted, UInt32.toNat_and]
  apply Nat.eq_of_testBit_eq
  intro i
  have mask : (0xffff0000 : UInt32).toNat = (2 ^ 16 - 1) <<< 16 := rfl
  rw [mask, Nat.testBit_and, Nat.testBit_shiftLeft, Nat.testBit_two_pow_sub_one, Nat.testBit_shiftLeft, Nat.testBit_shiftRight]
  by_cases upper : 16 ≤ i
  · by_cases beyond : i < 32
    · have inside : i - 16 < 16 := by omega
      simp [upper, inside, Nat.add_sub_of_le upper]
    · have above : word.toNat.testBit i = false := by
        apply Nat.testBit_lt_two_pow
        exact bound.trans_le (Nat.pow_le_pow_right (by omega) (by omega))
      simp [upper, above, Nat.add_sub_of_le upper]
  · simp [upper]

theorem or_high (low high : Nat) (below : low < 65536) : 65536 * high ||| low = low + 65536 * high := by
  have joined : 65536 * high + low = 65536 * high ||| low := Nat.two_pow_add_eq_or_of_lt (i := 16) below high
  omega

/-- A difference whose lanes wrap around by themselves. -/
theorem Holds.sub {one other : UInt32} {a b c d : Nat} (first : Holds one a b) (second : Holds other c d) :
    Holds (((one &&& 0xffff0000) - (other &&& 0xffff0000)) ||| ((one - other) &&& 0xffff)) ((a + 65536 - c) % 65536)
      ((b + 65536 - d) % 65536) := by
  obtain ⟨value, low, high⟩ := first
  obtain ⟨value', low', high'⟩ := second
  refine ⟨?_, Nat.mod_lt _ (by omega), Nat.mod_lt _ (by omega)⟩
  have upper : ((one &&& 0xffff0000) - (other &&& 0xffff0000)).toNat = 65536 * ((b + 65536 - d) % 65536) := by
    rw [UInt32.toNat_sub, and_high, and_high, value, value']
    omega
  have lower : ((one - other) &&& 0xffff).toNat = (a + 65536 - c) % 65536 := by
    rw [and_low, UInt32.toNat_sub, value, value']
    omega
  rw [UInt32.toNat_or, upper, lower]
  exact or_high _ _ (Nat.mod_lt _ (by omega))

theorem Holds.join {first second : UInt32} (low : first.toNat < 65536) (high : second.toNat < 65536) :
    Holds (first ||| (second <<< 16)) first.toNat second.toNat := by
  refine ⟨?_, low, high⟩
  have shift : second.toNat <<< ((16 : UInt32).toNat % 32) % 2 ^ 32 = 65536 * second.toNat := by
    have sixteen : (16 : UInt32).toNat % 32 = 16 := rfl
    rw [sixteen, Nat.shiftLeft_eq]
    omega
  rw [UInt32.toNat_or, UInt32.toNat_shiftLeft, Nat.or_comm, shift]
  exact or_high _ _ low

theorem Holds.pair (first second : UInt8) : Holds (first.toUInt32 ||| (second.toUInt32 <<< 16)) first.toNat second.toNat := by
  have low := first.toNat_lt
  have high := second.toNat_lt
  have joined := @Holds.join first.toUInt32 second.toUInt32 (by rw [UInt8.toNat_toUInt32]; omega) (by rw [UInt8.toNat_toUInt32]; omega)
  rwa [UInt8.toNat_toUInt32, UInt8.toNat_toUInt32] at joined

theorem Holds.words (first second : UInt16) : Holds (first.toUInt32 ||| (second.toUInt32 <<< 16)) first.toNat second.toNat := by
  have low := first.toNat_lt
  have high := second.toNat_lt
  have joined := @Holds.join first.toUInt32 second.toUInt32 (by rw [UInt16.toNat_toUInt32]; omega) (by rw [UInt16.toNat_toUInt32]; omega)
  rwa [UInt16.toNat_toUInt32, UInt16.toNat_toUInt32] at joined

section Bits

variable {word other : UInt32} {a b c d : Nat}

theorem Holds.testBit (holds : Holds word a b) (i : Nat) :
    word.toNat.testBit i = if i < 16 then a.testBit i else b.testBit (i - 16) := by
  rw [holds.value, Nat.add_comm]
  exact Nat.testBit_two_pow_mul_add b (i := 16) holds.low i

theorem holds_of_testBit (low : a < 65536) (high : b < 65536)
    (bits : ∀ i, i < 32 → word.toNat.testBit i = if i < 16 then a.testBit i else b.testBit (i - 16)) : Holds word a b := by
  refine ⟨?_, low, high⟩
  apply Nat.eq_of_testBit_eq
  intro i
  have joined : (a + 65536 * b).testBit i = if i < 16 then a.testBit i else b.testBit (i - 16) := by
    rw [Nat.add_comm]
    exact Nat.testBit_two_pow_mul_add b (i := 16) low i
  rw [joined]
  by_cases inside : i < 32
  · exact bits i inside
  · have power : 2 ^ 32 ≤ 2 ^ i := Nat.pow_le_pow_right (by omega) (by omega)
    have power' : 2 ^ 16 ≤ 2 ^ (i - 16) := Nat.pow_le_pow_right (by omega) (by omega)
    rw [if_neg (by omega), Nat.testBit_lt_two_pow (word.toNat_lt.trans_le power), Nat.testBit_lt_two_pow (by omega)]

theorem Holds.or (first : Holds word a b) (second : Holds other c d) : Holds (word ||| other) (a ||| c) (b ||| d) := by
  apply holds_of_testBit (Nat.or_lt_two_pow (n := 16) first.low second.low) (Nat.or_lt_two_pow (n := 16) first.high second.high)
  intro i _
  rw [UInt32.toNat_or, Nat.testBit_or, first.testBit, second.testBit, Nat.testBit_or, Nat.testBit_or]
  split <;> rfl

variable {mask : UInt32} {m n : Nat} {shift : UInt32}

theorem Holds.unique (first : Holds word a b) (second : Holds other a b) : word = other :=
  UInt32.toNat_inj.mp (first.value.trans second.value.symm)

end Bits

theorem Holds.lowByte {word : UInt32} {a b : Nat} (holds : Holds word a b) :
    (word >>> 7).toUInt8.toNat = a / 128 % 256 := by
  have low := holds.low
  rw [UInt32.toNat_toUInt8, UInt32.toNat_shiftRight, holds.value]
  have seven : (7 : UInt32).toNat % 32 = 7 := rfl
  rw [seven, Nat.shiftRight_eq_div_pow]
  omega

theorem Holds.highByte {word : UInt32} {a b : Nat} (holds : Holds word a b) :
    ((word >>> 7) >>> 16).toUInt8.toNat = b / 128 % 256 := by
  have low := holds.low
  rw [UInt32.toNat_toUInt8, UInt32.toNat_shiftRight, UInt32.toNat_shiftRight, holds.value]
  have seven : (7 : UInt32).toNat % 32 = 7 := rfl
  have sixteen : (16 : UInt32).toNat % 32 = 16 := rfl
  rw [seven, sixteen, Nat.shiftRight_eq_div_pow, Nat.shiftRight_eq_div_pow]
  omega

end Lanes
