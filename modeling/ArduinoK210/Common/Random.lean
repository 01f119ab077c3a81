import ArduinoK210.Lib.Comp
import ArduinoK210.Lib.Rejection

/-! Random numbers in a range, from a stream of random words. -/

namespace ArduinoK210.Common

open Rejection (Accepts)

/-- The words that the generator is going to give. -/
abbrev Stream := Nat → UInt32

def Stream.after (words : Stream) (drawn : Nat) : Stream := fun i => words (drawn + i)

def prngGet : Comp Stream UInt32 := .act fun words => (words 0, words.after 1)

/-- An `uint32_t` next to a `long`. -/
def widen (x : UInt32) : Int64 := x.toUInt64.toInt64

/-- `uint64_t(x) * uint64_t(howbig)`. -/
def product (howbig : Int64) (x : UInt32) : UInt64 := x.toUInt64 * howbig.toUInt64

def threshold (howbig : Int64) : UInt32 :=
  let t := (-howbig).toUInt64.toUInt32
  if widen t ≥ howbig then
    let t := (widen t - howbig).toUInt64.toUInt32
    if widen t ≥ howbig then (widen t % howbig).toUInt64.toUInt32 else t
  else t

def redraw (howbig : Int64) (t : UInt32) : (bound : Nat) → (m : UInt64) → Comp Stream UInt64
  | 0, _ => .stuck
  | bound + 1, m => if m.toUInt32 < t then prngGet >>= fun x => redraw howbig t bound (product howbig x) else pure m

def randomBelow (howbig : Int64) (bound : Nat) : Comp Stream Int64 :=
  prngGet >>= fun x =>
    let m := product howbig x
    (if widen m.toUInt32 < howbig then redraw howbig (threshold howbig) bound m else pure m) >>= fun m => pure (m >>> 32).toInt64

def random (howsmall howbig : Int64) (bound : Nat) : Comp Stream Int64 :=
  if howsmall ≥ howbig then pure howsmall
  else randomBelow (howbig - howsmall) bound >>= fun value => pure (value + howsmall)

section Words
variable {howbig : Int64} {n : Nat}

private theorem toInt64_toInt {x : UInt64} (small : x.toNat < 2 ^ 63) : x.toInt64.toInt = x.toNat :=
  BitVec.toInt_eq_toNat_of_lt (show 2 * x.toNat < 2 ^ 64 by omega)

private theorem toUInt64_toNat {x : Int64} (is : x.toInt = n) : x.toUInt64.toNat = n := by
  have positive : 0 ≤ x := Int64.le_iff_toInt_le.mpr (by rw [is]; exact Int.natCast_nonneg n)
  have same := Int64.toInt_eq_toNatClampNeg positive
  rw [Int64.toNat_toUInt64_of_le positive]
  omega

private theorem widen_toInt (x : UInt32) : (widen x).toInt = x.toNat := by
  have small := x.toNat_lt
  rw [widen, toInt64_toInt (by rw [UInt32.toNat_toUInt64]; omega), UInt32.toNat_toUInt64]

private theorem widen_lt (x : UInt32) (is : howbig.toInt = n) : widen x < howbig ↔ x.toNat < n := by
  rw [Int64.lt_iff_toInt_lt, widen_toInt, is, Int.ofNat_lt]

private theorem le_widen (x : UInt32) (is : howbig.toInt = n) : widen x ≥ howbig ↔ n ≤ x.toNat := by
  rw [ge_iff_le, Int64.le_iff_toInt_le, widen_toInt, is, Int.ofNat_le]

/-- The two subtractions are steps of the division by `howbig`. -/
theorem threshold_toNat (is : howbig.toInt = n) (positive : 0 < n) (most : n ≤ 2 ^ 32) : (threshold howbig).toNat = 2 ^ 32 % n := by
  have bits := toUInt64_toNat is
  have first : (-howbig).toUInt64.toUInt32.toNat = (2 ^ 32 - n) % 2 ^ 32 := by
    rw [UInt64.toNat_toUInt32, Int64.toUInt64_neg, UInt64.toNat_neg, bits, UInt64.size]
    omega
  unfold threshold
  generalize (-howbig).toUInt64.toUInt32 = t at first
  dsimp only
  split
  next more =>
    have more := (le_widen t is).mp more
    have below : t.toNat = 2 ^ 32 - n := by omega
    have difference : (widen t - howbig).toInt = (t.toNat - n : Nat) := by
      rw [Int64.toInt_sub, widen_toInt, is, Int.bmod_eq_of_le (by omega) (by omega)]
      omega
    have second : (widen t - howbig).toUInt64.toUInt32.toNat = t.toNat - n := by
      rw [UInt64.toNat_toUInt32, toUInt64_toNat difference]
      omega
    have once : (2 ^ 32 - n) % n = 2 ^ 32 % n := (Nat.mod_eq_sub_mod most).symm
    have twice : (2 ^ 32 - n - n) % n = 2 ^ 32 % n := by rw [← Nat.mod_eq_sub_mod (by omega), once]
    generalize (widen t - howbig).toUInt64.toUInt32 = t at second
    split
    next more =>
      have rest : (widen t % howbig).toInt = (t.toNat % n : Nat) := by
        rw [Int64.toInt_mod, widen_toInt, is]
        rfl
      have small := t.toNat_lt
      have less := Nat.mod_le t.toNat n
      rw [UInt64.toNat_toUInt32, toUInt64_toNat rest, Nat.mod_eq_of_lt (by omega), second, below, twice]
    next less =>
      have less := Nat.not_le.mp (mt (le_widen t is).mpr less)
      rw [second, below] at less ⊢
      rw [← twice, Nat.mod_eq_of_lt less]
  next less =>
    have less := Nat.not_le.mp (mt (le_widen t is).mpr less)
    rw [first] at less ⊢
    rcases Nat.lt_or_eq_of_le most with below | rfl
    · have once : (2 ^ 32 - n) % n = 2 ^ 32 % n := (Nat.mod_eq_sub_mod most).symm
      rw [Nat.mod_eq_of_lt (Nat.sub_lt (by decide) positive)] at less ⊢
      rw [← once, Nat.mod_eq_of_lt less]
    · rfl

private theorem product_toNat (is : howbig.toInt = n) (most : n ≤ 2 ^ 32) (x : UInt32) : (product howbig x).toNat = x.toNat * n := by
  have small := x.toNat_lt
  have below : x.toNat * n < 2 ^ 64 :=
    calc x.toNat * n ≤ x.toNat * 2 ^ 32 := Nat.mul_le_mul_left _ most
      _ < 2 ^ 64 := by omega
  rw [product, UInt64.toNat_mul, UInt32.toNat_toUInt64, toUInt64_toNat is, Nat.mod_eq_of_lt below]

/-- What the loop keeps is what rejection from a range of that size accepts. -/
theorem kept_iff (is : howbig.toInt = n) (positive : 0 < n) (most : n ≤ 2 ^ 32) (x : UInt32) :
    ¬(product howbig x).toUInt32 < threshold howbig ↔ Accepts (2 ^ 32) n x.toNat := by
  rw [UInt32.lt_iff_toNat_lt, threshold_toNat is positive most, UInt64.toNat_toUInt32, product_toNat is most, Nat.not_lt]
  exact Iff.rfl

end Words

section Loop
variable {howbig : Int64} {t : UInt32} {words : Stream}

private theorem Stream.after_after (words : Stream) (first second : Nat) : (words.after first).after second = words.after (first + second) := by
  funext i
  exact congrArg words (Nat.add_assoc first second i).symm

private theorem redraw_kept {m : UInt64} (kept : ¬m.toUInt32 < t) (bound : Nat) : redraw howbig t (bound + 1) m = pure m := if_neg kept

private theorem redraw_rejected {m : UInt64} (rejected : m.toUInt32 < t) (bound : Nat) :
    (redraw howbig t (bound + 1) m).run words = (redraw howbig t bound (product howbig (words 0))).run (words.after 1) := by
  rw [redraw, if_pos rejected]
  rfl

theorem redraw_first {k : Nat} (rejected : ∀ i, i < k → (product howbig (words i)).toUInt32 < t)
    (kept : ¬(product howbig (words k)).toUInt32 < t) :
    (redraw howbig t (k + 1) (product howbig (words 0))).run (words.after 1) =
      (some (product howbig (words k)), words.after (k + 1)) := by
  induction k generalizing words with
  | zero =>
    rw [redraw_kept kept]
    rfl
  | succ k ih =>
    have next (i : Nat) : words.after 1 i = words (i + 1) := congrArg words (Nat.add_comm 1 i)
    rw [redraw_rejected (rejected 0 (Nat.succ_pos k)), ih, Stream.after_after, next, Nat.add_comm 1]
    · intro i inside
      rw [next]
      exact rejected (i + 1) (Nat.succ_lt_succ inside)
    · rw [next]
      exact kept

private theorem redraw_never (rejected : ∀ i, (product howbig (words i)).toUInt32 < t) (bound : Nat) :
    ((redraw howbig t bound (product howbig (words 0))).run (words.after 1)).1 = none := by
  induction bound generalizing words with
  | zero => rfl
  | succ bound ih =>
    rw [redraw_rejected (rejected 0)]
    exact ih fun i => rejected (1 + i)

end Loop

section Below
variable {howbig : Int64} {n : Nat} {words : Stream}

private theorem rest_lt (is : howbig.toInt = n) (positive : 0 < n) (most : n ≤ 2 ^ 32) {l : UInt32} (rejected : l < threshold howbig) :
    widen l < howbig := by
  have rest := Nat.mod_lt (2 ^ 32) positive
  rw [UInt32.lt_iff_toNat_lt, threshold_toNat is positive most] at rejected
  exact (widen_lt l is).mpr (Nat.lt_trans rejected rest)

/-- A word that takes the way round the threshold would be kept by it. -/
theorem shortcut (is : howbig.toInt = n) (positive : 0 < n) (most : n ≤ 2 ^ 32) (m : UInt64) (bound : Nat) :
    (if widen m.toUInt32 < howbig then redraw howbig (threshold howbig) (bound + 1) m else pure m) =
      redraw howbig (threshold howbig) (bound + 1) m := by
  split
  next => rfl
  next large => exact (redraw_kept (mt (rest_lt is positive most) large) bound).symm

private theorem randomBelow_run (is : howbig.toInt = n) (positive : 0 < n) (most : n ≤ 2 ^ 32) (words : Stream) (bound : Nat) :
    (randomBelow howbig (bound + 1)).run words =
      (redraw howbig (threshold howbig) (bound + 1) (product howbig (words 0)) >>= fun m => pure (m >>> 32).toInt64).run
        (words.after 1) := by
  rw [← shortcut is positive most]
  rfl

private theorem shift_toInt (is : howbig.toInt = n) (most : n ≤ 2 ^ 32) (x : UInt32) :
    (product howbig x >>> 32).toInt64.toInt = Rejection.value (2 ^ 32) n x.toNat := by
  have high : (product howbig x >>> 32).toNat = x.toNat * n / 2 ^ 32 := by
    rw [UInt64.toNat_shiftRight, product_toNat is most, Nat.shiftRight_eq_div_pow]
    rfl
  have small := (product howbig x).toNat_lt
  rw [product_toNat is most] at small
  rw [toInt64_toInt (by omega), high]
  rfl

/-- The value is that of the first word that is accepted, and no word after it is drawn. -/
theorem randomBelow_first (is : howbig.toInt = n) (positive : 0 < n) (most : n ≤ 2 ^ 32) {k : Nat}
    (accepted : Accepts (2 ^ 32) n (words k).toNat) (rejected : ∀ i, i < k → ¬Accepts (2 ^ 32) n (words i).toNat) :
    Comp.Returns (randomBelow howbig) words (product howbig (words k) >>> 32).toInt64 (words.after (k + 1)) := by
  refine ⟨k + 1, ?_⟩
  rw [randomBelow_run is positive most]
  apply Comp.run_bind_some
  apply redraw_first
  · exact fun i inside => not_not.mp (mt (kept_iff is positive most _).mp (rejected i inside))
  · exact (kept_iff is positive most _).mpr accepted

/-- Without such a word it draws for ever. -/
theorem randomBelow_never (is : howbig.toInt = n) (positive : 0 < n) (most : n ≤ 2 ^ 32)
    (rejected : ∀ i, ¬Accepts (2 ^ 32) n (words i).toNat) (bound : Nat) : ((randomBelow howbig bound).run words).1 = none := by
  have below (i : Nat) := not_not.mp (mt (kept_iff is positive most (words i)).mp (rejected i))
  have unfolded : (randomBelow howbig bound).run words =
      ((if widen (product howbig (words 0)).toUInt32 < howbig then
        redraw howbig (threshold howbig) bound (product howbig (words 0))
      else pure (product howbig (words 0))) >>= fun m => pure (m >>> 32).toInt64).run (words.after 1) := rfl
  rw [unfolded, if_pos (rest_lt is positive most (below 0))]
  exact congrArg Prod.fst (Comp.run_bind_none (Prod.ext (redraw_never below bound) rfl))

end Below

section Range
variable {howsmall howbig : Int64}

/-- The words that give one value in the range. -/
def wordsOf (howsmall howbig value : Int64) : Set UInt32 :=
  let n := (howbig.toInt - howsmall.toInt).toNat
  { x | Accepts (2 ^ 32) n x.toNat ∧ howsmall.toInt + Rejection.value (2 ^ 32) n x.toNat = value.toInt }

/-- How many values are in a range. -/
structure Spans (howsmall howbig : Int64) (n : Nat) : Prop where
  size : howbig.toInt - howsmall.toInt = n
  positive : 0 < n
  most : n ≤ 2 ^ 32

namespace Spans
variable {n k : Nat} {words : Stream}

private theorem of_range (less : howsmall < howbig) (range : howbig.toInt - howsmall.toInt ≤ 2 ^ 32) :
    Spans howsmall howbig (howbig.toInt - howsmall.toInt).toNat := by
  have less := Int64.lt_iff_toInt_lt.mp less
  exact ⟨by omega, by omega, by omega⟩

private theorem difference (spans : Spans howsmall howbig n) : (howbig - howsmall).toInt = n := by
  have size := spans.size
  have most := spans.most
  rw [Int64.toInt_sub, size]
  exact Int.bmod_eq_of_le (by omega) (by omega)

private theorem run (spans : Spans howsmall howbig n) (bound : Nat) :
    random howsmall howbig bound = randomBelow (howbig - howsmall) bound >>= fun value => pure (value + howsmall) := by
  apply if_neg
  have size := spans.size
  have positive := spans.positive
  rw [ge_iff_le, Int64.le_iff_toInt_le]
  omega

theorem sum (spans : Spans howsmall howbig n) {value : Int64} {v : Nat} (is : value.toInt = v) (below : v < n) :
    (value + howsmall).toInt = howsmall.toInt + v := by
  have size := spans.size
  have low := howsmall.le_toInt
  have high := howbig.toInt_lt
  rw [Int64.toInt_add, is, Int.bmod_eq_of_le (by omega) (by omega), Int.add_comm]

private theorem first (spans : Spans howsmall howbig n) (accepted : Accepts (2 ^ 32) n (words k).toNat)
    (rejected : ∀ i, i < k → ¬Accepts (2 ^ 32) n (words i).toNat) :
    ∃ value, Comp.Returns (random howsmall howbig) words value (words.after (k + 1)) ∧
      howsmall ≤ value ∧ value < howbig ∧ value.toInt = howsmall.toInt + Rejection.value (2 ^ 32) n (words k).toNat := by
  obtain ⟨bound, returned⟩ := randomBelow_first spans.difference spans.positive spans.most accepted rejected
  have below := Rejection.value_lt (words k).toNat_lt spans.positive
  have sum := spans.sum (shift_toInt spans.difference spans.most (words k)) below
  have size := spans.size
  refine ⟨_, ⟨bound, ?_⟩, ?_, ?_, sum⟩
  · rw [spans.run]
    exact Comp.run_bind_some returned
  · rw [Int64.le_iff_toInt_le, sum]
    omega
  · rw [Int64.lt_iff_toInt_lt, sum]
    omega

private theorem never (spans : Spans howsmall howbig n) (rejected : ∀ i, ¬Accepts (2 ^ 32) n (words i).toNat) (value : Int64) (after : Stream) :
    ¬Comp.Returns (random howsmall howbig) words value after := by
  rintro ⟨bound, returned⟩
  have lost := randomBelow_never spans.difference spans.positive spans.most rejected bound
  rw [spans.run, Comp.run_bind_none (Prod.ext lost rfl)] at returned
  cases returned

theorem ncard (spans : Spans howsmall howbig n) {v : Nat} (below : v < n) :
    Set.ncard { x : UInt32 | Accepts (2 ^ 32) n x.toNat ∧ Rejection.value (2 ^ 32) n x.toNat = v } = 2 ^ 32 / n := by
  rw [← Rejection.accepted_ncard spans.positive spans.most below,
    ← Set.ncard_image_of_injective _ (fun _ _ same => UInt32.toNat_inj.mp same : Function.Injective UInt32.toNat)]
  congr 1
  ext w
  constructor
  · rintro ⟨x, found, rfl⟩
    exact ⟨x.toNat_lt, found⟩
  · rintro ⟨small, found⟩
    have same : (UInt32.ofNat w).toNat = w := UInt32.toNat_ofNat_of_lt' small
    refine ⟨UInt32.ofNat w, ?_, same⟩
    rw [← same] at found
    exact found

end Spans

/-- A random number is in its range, is that of the first word that is accepted, and each is that of equally many words. -/
theorem random_uniform (less : howsmall < howbig) (range : howbig.toInt - howsmall.toInt ≤ 2 ^ 32) :
    let n := (howbig.toInt - howsmall.toInt).toNat
    (∀ (words : Stream) (k : Nat), Accepts (2 ^ 32) n (words k).toNat → (∀ i, i < k → ¬Accepts (2 ^ 32) n (words i).toNat) →
      ∃ value, Comp.Returns (random howsmall howbig) words value (words.after (k + 1)) ∧
        howsmall ≤ value ∧ value < howbig ∧ words k ∈ wordsOf howsmall howbig value) ∧
      (∀ words : Stream, (∀ i, ¬Accepts (2 ^ 32) n (words i).toNat) →
        ¬∃ value after, Comp.Returns (random howsmall howbig) words value after) ∧
      ∀ value, howsmall ≤ value → value < howbig → (wordsOf howsmall howbig value).ncard = 2 ^ 32 / n := by
  intro n
  have spans : Spans howsmall howbig n := .of_range less range
  refine ⟨fun words k accepted rejected => ?_, fun words rejected => ?_, fun value low high => ?_⟩
  · obtain ⟨value, returned, low, high, is⟩ := spans.first accepted rejected
    exact ⟨value, returned, low, high, accepted, is.symm⟩
  · rintro ⟨value, after, returned⟩
    exact spans.never rejected value after returned
  · have size := spans.size
    rw [Int64.le_iff_toInt_le] at low
    rw [Int64.lt_iff_toInt_lt] at high
    rw [← spans.ncard (show (value.toInt - howsmall.toInt).toNat < n by omega)]
    congr 1
    ext x
    refine and_congr_right fun _ => ?_
    change howsmall.toInt + (Rejection.value (2 ^ 32) n x.toNat : Int) = value.toInt ↔ _
    omega

/-- A range of three, from a stream whose first word is rejected. -/
theorem random_uniform_three : (4 : Int64) < 7 ∧ (7 : Int64).toInt - (4 : Int64).toInt ≤ 2 ^ 32 ∧
    (∃ value, Comp.Returns (random 4 7) (fun i => UInt32.ofNat (i * 3000000000)) value
        (Stream.after (fun i => UInt32.ofNat (i * 3000000000)) 2) ∧ (4 : Int64) ≤ value ∧ value < 7) ∧
      (wordsOf 4 7 6).ncard = 2 ^ 32 / 3 := by
  have less : (4 : Int64) < 7 := by decide
  have range : (7 : Int64).toInt - (4 : Int64).toInt ≤ 2 ^ 32 := by decide
  obtain ⟨first, -, count⟩ := random_uniform less range
  have one : ((7 : Int64).toInt - (4 : Int64).toInt).toNat = 3 := by decide
  rw [one] at first count
  obtain ⟨value, returned, low, high, -⟩ := first (fun i => UInt32.ofNat (i * 3000000000)) 1 (by decide) (by decide)
  exact ⟨less, range, ⟨value, returned, low, high⟩, count 6 (by decide) (by decide)⟩

end Range

end ArduinoK210.Common
