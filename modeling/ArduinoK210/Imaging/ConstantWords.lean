import ArduinoK210.Imaging.Constant

/-! Resizing an RGB565 image of one colour. -/

namespace ArduinoK210.Imaging

open Bilinear (centre cell fraction truncate)
open Gather (Step raster Makes)

section Words
variable {dst : Nat} {reads : List Nat} {value : List UInt16 → Option UInt16}

private theorem words_reads (source : Nat → UInt8) (reads : List Nat) :
    words ((reads.flatMap fun i => [((i * 2 : Nat) : Int), ((i * 2 + 1 : Nat) : Int)]).map fun place => source place.toNat) =
      reads.map (Image.rgb565At source) := by
  induction reads with
  | nil => rfl
  | cons i reads ih =>
    simp only [List.flatMap_cons, List.cons_append, List.nil_append, List.map_cons, words, Int.toNat_natCast]
    rw [ih]
    rfl

theorem wordSteps_result (source : Nat → UInt8) {step : Step UInt8} (inside : step ∈ wordSteps dst reads value) :
    ∃ k < 2, step.dst = (dst * 2 + k : Nat) ∧ step.result source =
      (value (reads.map (Image.rgb565At source))).map fun word => (bytes16 word).getD k 0 := by
  simp only [wordSteps, List.mem_cons, List.not_mem_nil, or_false] at inside
  rcases inside with rfl | rfl
  · refine ⟨0, by decide, rfl, ?_⟩
    rw [← words_reads]
    rfl
  · refine ⟨1, by decide, rfl, ?_⟩
    rw [← words_reads]
    rfl

section Elements
variable {source : Nat → UInt8} {rows width size : Nat} {pixel : Nat → Nat → List (Step UInt8)} {outcome : Nat → Nat → Option UInt16}
  {y x : Nat} (elements : ∀ y x, y < rows → x < width → ∃ reads value, (∀ i ∈ reads, i < size) ∧
    pixel y x = wordSteps (y * width + x) reads value ∧ value (reads.map (Image.rgb565At source)) = outcome y x)
include elements

private theorem element_result (row : y < rows) (column : x < width) {step : Step UInt8} (member : step ∈ pixel y x) :
    ∃ k < 2, step.dst = ((y * width + x) * 2 + k : Nat) ∧
      step.result source = (outcome y x).map fun word => (bytes16 word).getD k 0 := by
  obtain ⟨reads, value, _, same, made⟩ := elements y x row column
  rw [same] at member
  rw [← made]
  exact wordSteps_result source member

/-- A byte that is wanted is that of the value of its element. -/
theorem element_byte {wanted : Nat → UInt8} (row : y < rows) (column : x < width) {k : Nat} (byte : k < 2)
    (makes : Makes source (size * 2) (width * rows * 2) (raster rows width pixel) (width * rows * 2) wanted) :
    ((outcome y x).map fun word => (bytes16 word).getD k 0) = some (wanted ((y * width + x) * 2 + k)) := by
  have bytes := byte_nontrivial
  have index := Raster.row_lt row column
  obtain ⟨step, member, place, own⟩ := makes.written (a := (y * width + x) * 2 + k) (by omega)
  obtain ⟨y', x', row', column', member⟩ := Gather.mem_raster.mp member
  obtain ⟨k', byte', there, result⟩ := element_result elements row' column' member
  have cell : y' * width + x' = y * width + x ∧ k' = k := by omega
  have line : y' = y := by rw [← Raster.row_div y' column', cell.1, Raster.row_div y column]
  have across : x' = x := by rw [← Raster.row_mod y' column', cell.1, Raster.row_mod y column]
  rw [result, line, across, cell.2] at own
  exact own

/-- A loop that assigns an element of each pixel makes one colour exactly when each value is that colour. -/
theorem words_makes_iff (word : UInt16) :
    Makes source (size * 2) (width * rows * 2) (raster rows width pixel) (width * rows * 2)
        (fun a => (bytes16 word).getD (a % 2) 0) ↔
      ∀ y x, y < rows → x < width → outcome y x = some word := by
  constructor
  · intro makes y x row column
    have each : ∀ k, k < 2 → ((outcome y x).map fun word => (bytes16 word).getD k 0) = some ((bytes16 word).getD k 0) := by
      intro k byte
      rw [element_byte elements row column byte makes, Nat.mul_comm, Nat.mul_add_mod, Nat.mod_eq_of_lt byte]
    obtain ⟨made, there, low⟩ := Option.map_eq_some_iff.mp (each 0 (by decide))
    have high := each 1 (by decide)
    rw [there, Option.map_some] at high
    rw [there]
    have top := Option.some.inj high
    simp only [bytes16, List.getD_cons_zero, List.getD_cons_succ] at low top
    exact congrArg some (bytes16_injective (by rw [bytes16, bytes16, low, top]))
  · intro values
    have words : ∀ y x, y < rows → x < width → ∃ reads value, (∀ i ∈ reads, i < size) ∧
        pixel y x = wordSteps (y * width + x) reads value := by
      intro y x row column
      obtain ⟨reads, value, inside, same, _⟩ := elements y x row column
      exact ⟨reads, value, inside, same⟩
    have bounded := Image.words_bounded words
    refine Gather.makes_of_values bounded.1 bounded.2 fun step member a place => ?_
    obtain ⟨y, x, row, column, member⟩ := Gather.mem_raster.mp member
    obtain ⟨k, byte, here, result⟩ := element_result elements row column member
    have index : a = 2 * (y * width + x) + k := by omega
    rw [result, values y x row column, index, Nat.mul_add_mod, Nat.mod_eq_of_lt byte]
    rfl

end Elements

end Words

def rgb565ToB5 (pixel : UInt16) : UInt16 := pixel &&& 0x1f

section Fields
variable (pixel : UInt16)

private theorem rgb565ToR5_lt : (rgb565ToR5 pixel).toNat < 32 := by
  have masked : (rgb565ToR5 pixel).toNat = (pixel >>> 11).toNat % 32 := by
    rw [rgb565ToR5, UInt16.toNat_and]
    exact Nat.and_two_pow_sub_one_eq_mod _ 5
  rw [masked]
  exact Nat.mod_lt _ (by decide)

private theorem rgb565ToG6_lt : (rgb565ToG6 pixel).toNat < 64 := by
  have masked : (rgb565ToG6 pixel).toNat = (pixel >>> 5).toNat % 64 := by
    rw [rgb565ToG6, UInt16.toNat_and]
    exact Nat.and_two_pow_sub_one_eq_mod _ 6
  rw [masked]
  exact Nat.mod_lt _ (by decide)

private theorem mask5_getLsbD {i : Nat} (inside : i < 16) : (31#16).getLsbD i = decide (i < 5) := by
  have all : ∀ i < 16, (31#16).getLsbD i = decide (i < 5) := by decide
  exact all i inside

private theorem mask6_getLsbD {i : Nat} (inside : i < 16) : (63#16).getLsbD i = decide (i < 6) := by
  have all : ∀ i < 16, (63#16).getLsbD i = decide (i < 6) := by decide
  exact all i inside

private theorem rgb565ToR5_getLsbD {i : Nat} (inside : i < 16) :
    (rgb565ToR5 pixel).toBitVec.getLsbD i = (pixel.toBitVec.getLsbD (11 + i) && decide (i < 5)) := by
  rw [← mask5_getLsbD inside, ← BitVec.getLsbD_ushiftRight, ← BitVec.getLsbD_and]
  rfl

private theorem rgb565ToG6_getLsbD {i : Nat} (inside : i < 16) :
    (rgb565ToG6 pixel).toBitVec.getLsbD i = (pixel.toBitVec.getLsbD (5 + i) && decide (i < 6)) := by
  rw [← mask6_getLsbD inside, ← BitVec.getLsbD_ushiftRight, ← BitVec.getLsbD_and]
  rfl

private theorem rgb565ToB5_getLsbD {i : Nat} (inside : i < 16) :
    (rgb565ToB5 pixel).toBitVec.getLsbD i = (pixel.toBitVec.getLsbD i && decide (i < 5)) := by
  rw [← mask5_getLsbD inside, ← BitVec.getLsbD_and]
  rfl

theorem r5G6B5_getLsbD (r5 g6 b5 : UInt8) {i : Nat} (inside : i < 16) :
    (r5G6B5ToRgb565 r5 g6 b5).toBitVec.getLsbD i =
      (decide (11 ≤ i) && r5.toBitVec.getLsbD (i - 11) || decide (5 ≤ i) && g6.toBitVec.getLsbD (i - 5) || b5.toBitVec.getLsbD i) := by
  change ((r5.toBitVec.setWidth 16 <<< 11 ||| g6.toBitVec.setWidth 16 <<< 5) ||| b5.toBitVec.setWidth 16).getLsbD i = _
  simp only [BitVec.getLsbD_or, BitVec.getLsbD_shiftLeft, BitVec.getLsbD_setWidth, inside]
  grind

private theorem toUInt8_getLsbD (word : UInt16) (i : Nat) : word.toUInt8.toBitVec.getLsbD i = (decide (i < 8) && word.toBitVec.getLsbD i) :=
  BitVec.getLsbD_setWidth 8 word.toBitVec i

theorem r5G6B5_fields : r5G6B5ToRgb565 (rgb565ToR5 pixel).toUInt8 (rgb565ToG6 pixel).toUInt8 (rgb565ToB5 pixel).toUInt8 = pixel := by
  apply UInt16.eq_of_toBitVec_eq
  apply BitVec.eq_of_getLsbD_eq
  intro i inside
  have high : i - 11 < 16 := by omega
  have middle : i - 5 < 16 := by omega
  rw [r5G6B5_getLsbD _ _ _ inside, toUInt8_getLsbD, toUInt8_getLsbD, toUInt8_getLsbD, rgb565ToR5_getLsbD pixel high,
    rgb565ToG6_getLsbD pixel middle, rgb565ToB5_getLsbD pixel inside]
  grind

private theorem green_of_fields (green : UInt8) :
    rgb565ToG6 (r5G6B5ToRgb565 (rgb565ToR5 pixel).toUInt8 green (rgb565ToR5 pixel).toUInt8) = green.toUInt16 &&& 0x3f := by
  apply UInt16.eq_of_toBitVec_eq
  apply BitVec.eq_of_getLsbD_eq
  intro i inside
  have byte : (green.toUInt16 &&& 0x3f).toBitVec.getLsbD i = (green.toBitVec.getLsbD i && decide (i < 6)) := by
    rw [← mask6_getLsbD inside]
    change (green.toBitVec.setWidth 16 &&& 63#16).getLsbD i = _
    rw [BitVec.getLsbD_and, BitVec.getLsbD_setWidth, decide_eq_true inside, Bool.true_and]
  rw [rgb565ToG6_getLsbD _ inside, byte]
  by_cases field : i < 6
  · have place : 5 + i < 16 := by omega
    have first : 5 + i - 11 < 16 := by omega
    rw [r5G6B5_getLsbD _ _ _ place, toUInt8_getLsbD, toUInt8_getLsbD, rgb565ToR5_getLsbD pixel first, rgb565ToR5_getLsbD pixel place]
    grind
  · rw [decide_eq_false field, Bool.and_false, Bool.and_false]

private theorem blue_of_fields (green : UInt8) :
    rgb565ToB5 (r5G6B5ToRgb565 (rgb565ToR5 pixel).toUInt8 green (rgb565ToR5 pixel).toUInt8) = rgb565ToR5 pixel := by
  apply UInt16.eq_of_toBitVec_eq
  apply BitVec.eq_of_getLsbD_eq
  intro i inside
  rw [rgb565ToB5_getLsbD _ inside, rgb565ToR5_getLsbD pixel inside, r5G6B5_getLsbD _ _ _ inside, toUInt8_getLsbD, toUInt8_getLsbD,
    rgb565ToR5_getLsbD pixel inside]
  grind

end Fields

def Level (pixel : UInt16) : Prop := rgb565ToR5 pixel = rgb565ToG6 pixel ∧ rgb565ToR5 pixel = rgb565ToB5 pixel

instance (pixel : UInt16) : Decidable (Level pixel) := inferInstanceAs (Decidable (_ ∧ _))

section Mix
variable {word : UInt16}

private theorem mix_same (first second : Nat) (place a : ℚ) : mix first second place a a = (second - first) * a := by
  unfold mix
  ring

theorem mix_unit (first : Nat) (place a : ℚ) : mix first (first + 1) place a a = a := by
  rw [mix_same]
  push_cast
  ring

private theorem toByte_field {field : UInt16} (small : field.toNat < 256) : toByte (wordValue field) = some field.toUInt8 :=
  toByte_natCast small

theorem toByte_truncate {value : ℚ} {byte : UInt8} (made : toByte value = some byte) : truncate value = byte.toNat := by
  obtain ⟨number, converted, rfl⟩ := Option.map_eq_some_iff.mp made
  obtain ⟨⟨nonneg, small⟩, same⟩ := Option.ite_none_right_eq_some.mp converted
  have number := Option.some.inj same
  rw [UInt8.toNat_ofNat', ← number]
  omega

namespace Image

/-- Without wrapping, red and blue are the red of the pixels, and green is off by a part of what red is more than it. -/
theorem rgb565Mix_same (word : UInt16) (x1 y1 : Nat) (xSrc ySrc : ℚ) :
    rgb565Mix x1 y1 (x1 + 1) (y1 + 1) xSrc ySrc [word, word, word] =
      (toByte (wordValue (rgb565ToG6 word) +
        (1 - (xSrc - x1)) * (1 - (ySrc - y1)) * (wordValue (rgb565ToR5 word) - wordValue (rgb565ToG6 word)))).map
        fun green => r5G6B5ToRgb565 (rgb565ToR5 word).toUInt8 green (rgb565ToR5 word).toUInt8 := by
  have green : ∀ r g : ℚ, mix y1 (y1 + 1) ySrc (mix x1 (x1 + 1) xSrc r g) g = g + (1 - (xSrc - x1)) * (1 - (ySrc - y1)) * (r - g) := by
    intro r g
    unfold mix
    push_cast
    ring
  have red := toByte_field ((rgb565ToR5_lt word).trans (by decide))
  simp only [rgb565Mix, mix_unit, green, red]
  cases toByte _ <;> rfl

private theorem rgb565Mix_level (level : Level word) (x1 y1 : Nat) (xSrc ySrc : ℚ) :
    rgb565Mix x1 y1 (x1 + 1) (y1 + 1) xSrc ySrc [word, word, word] = some word := by
  have fields := r5G6B5_fields word
  rw [← level.1, ← level.2] at fields
  rw [rgb565Mix_same, ← level.1, sub_self, mul_zero, add_zero, toByte_field ((rgb565ToR5_lt word).trans (by decide)), Option.map_some,
    fields]

private theorem rgb565Mix_black (x1 y1 x2 y2 : Nat) (xSrc ySrc : ℚ) : rgb565Mix x1 y1 x2 y2 xSrc ySrc [0, 0, 0] = some 0 := by
  have red : wordValue (rgb565ToR5 0) = 0 := rfl
  have green : wordValue (rgb565ToG6 0) = 0 := rfl
  simp only [rgb565Mix, red, green, mix_same, mul_zero, toByte_zero]
  rfl

/-- With a coordinate that wraps, red would be negative. -/
theorem rgb565Mix_wraps {x1 y1 x2 y2 : Nat} {xSrc ySrc : ℚ} {pixel : UInt16}
    (made : rgb565Mix x1 y1 x2 y2 xSrc ySrc [word, word, word] = some pixel) (wraps : ((y2 : ℚ) - y1) * ((x2 : ℚ) - x1) ≤ -1) :
    rgb565ToR5 word = 0 := by
  simp only [rgb565Mix, mix_same] at made
  obtain ⟨red, converted, _⟩ := Option.bind_eq_some_iff.mp made
  have kept := (Bilinear.truncate_eq_natCast (toByte_truncate converted)).1
  by_contra lit
  have one : 1 ≤ (rgb565ToR5 word).toNat := Nat.one_le_iff_ne_zero.mpr fun none => lit (UInt16.toNat_inj.mp none)
  have more : 1 ≤ wordValue (rgb565ToR5 word) := by
    rw [wordValue]
    exact_mod_cast one
  rw [← mul_assoc] at kept
  nlinarith

/-- A number between two bounds that are 64 apart is another one modulo 64 than the lower. -/
theorem green_differs {red green made : Nat} {weight : ℚ} (small : green < 64) (other : red ≠ green) (least : red < green → 1 ≤ weight)
    (range : green < red → 1 ≤ weight * (red - green : ℚ) ∧ weight * (red - green : ℚ) < 64)
    (truncated : truncate (green + weight * (red - green : ℚ)) = made) : made % 64 ≠ green := by
  obtain ⟨_, above, below⟩ := Bilinear.truncate_eq_natCast truncated
  rcases Nat.lt_or_gt_of_ne other with darker | brighter
  · have difference : (red : ℚ) - green ≤ 0 := by
      have most : (red : ℚ) ≤ green := by exact_mod_cast darker.le
      linarith
    have value : (green : ℚ) + weight * (red - green) ≤ red := by
      have more := mul_le_mul_of_nonpos_right (least darker) difference
      linarith
    have down : made < green := by
      rcases below with reached | none
      · have most : (made : ℚ) ≤ red := reached.trans value
        have most' : made ≤ red := by exact_mod_cast most
        omega
      · omega
    omega
  · obtain ⟨first, last⟩ := range brighter
    have up : green < made := by
      have past : (green : ℚ) < made := by linarith
      exact_mod_cast past
    have near : made < green + 64 := by
      rcases below with reached | none
      · have short : (made : ℚ) < green + 64 := by linarith
        exact_mod_cast short
      · omega
    omega

/-- A pixel whose interpolation gives it back has one blue and red, and a green that is kept. -/
theorem rgb565Mix_kept {x1 y1 : Nat} {xSrc ySrc : ℚ} (made : rgb565Mix x1 y1 (x1 + 1) (y1 + 1) xSrc ySrc [word, word, word] = some word) :
    rgb565ToR5 word = rgb565ToB5 word ∧ ∃ green : Nat, green % 64 = (rgb565ToG6 word).toNat ∧
      truncate ((rgb565ToG6 word).toNat + (1 - (xSrc - x1)) * (1 - (ySrc - y1)) *
        ((rgb565ToR5 word).toNat - (rgb565ToG6 word).toNat : ℚ)) = green := by
  rw [rgb565Mix_same] at made
  obtain ⟨green, converted, built⟩ := Option.map_eq_some_iff.mp made
  have blue := blue_of_fields word green
  have fits := green_of_fields word green
  rw [built] at blue fits
  refine ⟨blue.symm, green.toNat, ?_, toByte_truncate converted⟩
  rw [fits, UInt16.toNat_and, UInt8.toNat_toUInt16]
  exact (Nat.and_two_pow_sub_one_eq_mod _ 6).symm

end Image

end Mix

namespace Image

variable {src dst : Image} {source : Nat → UInt8} {colour : List UInt8} {y x : Nat} {word : UInt16}

/-- A coordinate of the last pixel that does not fit 16 bits has no value. -/
theorem rgb565Up_narrow (wide : 0 < dst.width) (high : 0 < dst.height) (some : 0 < src.width) (tall : 0 < src.height)
    (wider : src.width ≤ dst.width) (higher : src.height ≤ dst.height)
    (valued : ∀ step ∈ raster dst.height dst.width (src.rgb565Up dst), (step.result source).isSome) :
    src.width ≤ 65536 ∧ src.height ≤ 65536 := by
  have columns := (Bilinear.cell_last_iff some wide).mpr wider
  have rows := (Bilinear.cell_last_iff tall high).mpr higher
  have column := Nat.sub_lt wide Nat.one_pos
  have row := Nat.sub_lt high Nat.one_pos
  by_contra beyond
  have none : src.rgb565Up dst (dst.height - 1) (dst.width - 1) = [Step.undefined] := by
    simp only [rgb565Up, toUnsigned_centre 16 wide, toUnsigned_centre 16 high]
    split
    next first second =>
      have across := (Option.ite_none_right_eq_some.mp first).1
      have down := (Option.ite_none_right_eq_some.mp second).1
      omega
    next => rfl
  have value := valued Step.undefined (Gather.mem_raster.mpr ⟨_, _, row, column, none ▸ List.mem_singleton_self _⟩)
  cases value

section Upscaled
variable (wide : 2 ≤ src.width) (tall : 2 ≤ src.height)
include wide tall

/-- Near the first corner of the source all pixels are interpolated. -/
theorem upscaled_near (across : cell src.width dst.width x = 0) (down : cell src.height dst.height y = 0) :
    upscaled src dst word y x =
      rgb565Mix 0 0 1 1 (centre src.width dst.width x) (centre src.height dst.height y) [word, word, word] := by
  have inner : ¬ (src.width ≤ (0 + 1) % 65536 ∨ src.height ≤ (0 + 1) % 65536) := by omega
  simp only [upscaled, across, down, if_neg inner, Nat.zero_add, Nat.reduceMod]

private theorem upscaled_kept (across : cell src.width dst.width x = 0) (down : cell src.height dst.height y = 0)
    (kept : upscaled src dst word y x = some word) :
    rgb565ToR5 word = rgb565ToB5 word ∧ ∃ green : Nat, green % 64 = (rgb565ToG6 word).toNat ∧
      truncate ((rgb565ToG6 word).toNat + (1 - fraction src.width dst.width x) * (1 - fraction src.height dst.height y) *
        ((rgb565ToR5 word).toNat - (rgb565ToG6 word).toNat : ℚ)) = green := by
  rw [upscaled_near wide tall across down] at kept
  rw [fraction, fraction, across, down]
  exact rgb565Mix_kept kept

omit wide tall in
/-- Only a red far above green, close to the corner of a large image, makes the green wrap. -/
theorem red_far {across down red green : ℚ} (left : -(1 / 2) ≤ across) (upper : -(1 / 2) ≤ down) (leftmost : across ≤ 0)
    (uppermost : down ≤ 0) (most : red - green ≤ 31) (wraps : 64 ≤ (1 - across) * (1 - down) * (red - green)) : 2 * across + 1 ≤ 1 / 4 ∧ 28 ≤ red - green := by
  have area : (1 - across) * (1 - down) ≤ (1 - across) * (3 / 2) := mul_le_mul_of_nonneg_left (by linarith) (by linarith)
  have positive : 0 < (1 - across) * (1 - down) := mul_pos (by linarith) (by linarith)
  have bright : 0 < red - green := by
    by_contra dark
    have none := mul_nonpos_of_nonneg_of_nonpos positive.le (not_lt.mp dark)
    linarith
  have reach : 64 ≤ (1 - across) * (3 / 2) * (red - green) := wraps.trans (mul_le_mul_of_nonneg_right area bright.le)
  have near : (1 - across) * (3 / 2) * (red - green) ≤ (1 - across) * (3 / 2) * 31 :=
    mul_le_mul_of_nonneg_left most (mul_nonneg (by linarith) (by norm_num))
  have far : (1 - across) * (3 / 2) * (red - green) ≤ 3 / 2 * (3 / 2) * (red - green) :=
    mul_le_mul_of_nonneg_right (by linarith) bright.le
  constructor <;> linarith

omit wide tall in
private theorem red_most (word : UInt16) : ((rgb565ToR5 word).toNat : ℚ) - (rgb565ToG6 word).toNat ≤ 31 := by
  have red : ((rgb565ToR5 word).toNat : ℚ) ≤ 31 := by exact_mod_cast Nat.le_of_lt_succ (rgb565ToR5_lt word)
  have nonneg : (0 : ℚ) ≤ (rgb565ToG6 word).toNat := Nat.cast_nonneg _
  linarith

/-- Where red is so much more than green that the first pixel may have the same green again, one further from the corner has not. -/
theorem wrapped_red_seen (wider : src.width ≤ dst.width) (higher : src.height ≤ dst.height)
    (wraps : 64 ≤ (1 - fraction src.width dst.width 0) * (1 - fraction src.height dst.height 0) *
      ((rgb565ToR5 word).toNat - (rgb565ToG6 word).toNat : ℚ)) :
    ∃ x < dst.width, upscaled src dst word 0 x ≠ some word := by
  have down : cell src.height dst.height 0 = 0 := Bilinear.cell_zero higher
  obtain ⟨left, leftmost⟩ := Bilinear.fraction_zero_range (by omega : 0 < dst.width) wider
  obtain ⟨upper, uppermost⟩ := Bilinear.fraction_zero_range (by omega : 0 < dst.height) higher
  have most := red_most word
  obtain ⟨small, far⟩ := red_far left upper leftmost uppermost most wraps
  have longer : 4 * src.width ≤ dst.width := by
    have positive : (0 : ℚ) < dst.width := by
      have cells : 0 < dst.width := by omega
      exact_mod_cast cells
    rw [Bilinear.fraction_zero wider] at small
    have ratio : (src.width / dst.width : ℚ) ≤ 1 / 4 := by linarith
    rw [div_le_iff₀ positive] at ratio
    have quarter : (4 * src.width : ℚ) ≤ dst.width := by linarith
    exact_mod_cast quarter
  obtain ⟨x, column, here, behind, near⟩ := Bilinear.exists_near_first (by omega : 0 < src.width) longer
  refine ⟨x, column, fun kept => ?_⟩
  obtain ⟨_, green, same, value⟩ := upscaled_kept wide tall here down kept
  have least : 3 / 4 ≤ (1 - fraction src.width dst.width x) * (1 - fraction src.height dst.height 0) := by
    have lower := mul_le_mul_of_nonneg_left (by linarith : 1 ≤ 1 - fraction src.height dst.height 0)
      (by linarith : 0 ≤ 1 - fraction src.width dst.width x)
    linarith
  have greatest : (1 - fraction src.width dst.width x) * (1 - fraction src.height dst.height 0) ≤ 3 / 2 := by
    have higher := mul_le_mul_of_nonneg_right (by linarith : 1 - fraction src.width dst.width x ≤ 1)
      (by linarith : 0 ≤ 1 - fraction src.height dst.height 0)
    linarith
  have first := mul_le_mul_of_nonneg_right least (by linarith : (0 : ℚ) ≤ (rgb565ToR5 word).toNat - (rgb565ToG6 word).toNat)
  have last := mul_le_mul_of_nonneg_right greatest (by linarith : (0 : ℚ) ≤ (rgb565ToR5 word).toNat - (rgb565ToG6 word).toNat)
  have brighter : (rgb565ToG6 word).toNat < (rgb565ToR5 word).toNat := by
    have more : ((rgb565ToG6 word).toNat : ℚ) < (rgb565ToR5 word).toNat := by linarith
    exact_mod_cast more
  exact green_differs (rgb565ToG6_lt word) brighter.ne' (fun darker => absurd darker brighter.not_gt)
    (fun _ => ⟨by linarith, by linarith⟩) value same

private theorem level_of_upscaled (wider : src.width ≤ dst.width) (higher : src.height ≤ dst.height)
    (kept : ∀ y x, y < dst.height → x < dst.width → upscaled src dst word y x = some word) : Level word := by
  have across : cell src.width dst.width 0 = 0 := Bilinear.cell_zero wider
  have down : cell src.height dst.height 0 = 0 := Bilinear.cell_zero higher
  obtain ⟨left, leftmost⟩ := Bilinear.fraction_zero_range (by omega : 0 < dst.width) wider
  obtain ⟨upper, uppermost⟩ := Bilinear.fraction_zero_range (by omega : 0 < dst.height) higher
  obtain ⟨blue, green, same, value⟩ := upscaled_kept wide tall across down (kept 0 0 (by omega) (by omega))
  have weight : 1 ≤ (1 - fraction src.width dst.width 0) * (1 - fraction src.height dst.height 0) :=
    one_le_mul_of_one_le_of_one_le (by linarith) (by linarith)
  refine ⟨?_, blue⟩
  by_contra other
  have different : (rgb565ToR5 word).toNat ≠ (rgb565ToG6 word).toNat := fun equal => other (UInt16.toNat_inj.mp equal)
  refine green_differs (rgb565ToG6_lt word) different (fun _ => weight) (fun brighter => ⟨?_, ?_⟩) value same
  · have one : ((rgb565ToG6 word).toNat : ℚ) + 1 ≤ (rgb565ToR5 word).toNat := by exact_mod_cast brighter
    exact weight.trans (le_mul_of_one_le_right (by linarith) (by linarith))
  · by_contra wraps
    obtain ⟨x, column, differs⟩ := wrapped_red_seen wide tall wider higher (not_lt.mp wraps)
    exact differs (kept 0 x (by omega) column)

/-- A last row or column whose neighbour wraps to the first one leaves only black as it was. -/
theorem narrow_of_upscaled (narrow : src.width ≤ 65536) (low : src.height ≤ 65536)
    (wider : src.width ≤ dst.width) (higher : src.height ≤ dst.height)
    (kept : ∀ y x, y < dst.height → x < dst.width → upscaled src dst word y x = some word) :
    rgb565ToR5 word = 0 ∨ src.width < 65536 ∧ src.height < 65536 := by
  have column : dst.width - 1 < dst.width := Nat.sub_lt (by omega) Nat.one_pos
  have row : dst.height - 1 < dst.height := Nat.sub_lt (by omega) Nat.one_pos
  have right := (Bilinear.cell_last_iff (by omega : 0 < src.width) (by omega : 0 < dst.width)).mpr wider
  have bottom := (Bilinear.cell_last_iff (by omega : 0 < src.height) (by omega : 0 < dst.height)).mpr higher
  have rightmost := Bilinear.cell_lt (by omega : 0 < src.width) column
  have lowest := Bilinear.cell_lt (by omega : 0 < src.height) row
  have across : cell src.width dst.width 0 = 0 := Bilinear.cell_zero wider
  have down : cell src.height dst.height 0 = 0 := Bilinear.cell_zero higher
  by_cases columns : src.width = 65536
  · have last : cell src.width dst.width (dst.width - 1) = 65535 := by omega
    have inner : ¬ (src.width ≤ (65535 + 1) % 65536 ∨ src.height ≤ (0 + 1) % 65536) := by omega
    have made := kept 0 (dst.width - 1) (by omega) column
    simp only [upscaled, last, down, if_neg inner] at made
    exact Or.inl (rgb565Mix_wraps made (by norm_num))
  · by_cases rows : src.height = 65536
    · have last : cell src.height dst.height (dst.height - 1) = 65535 := by omega
      have inner : ¬ (src.width ≤ (0 + 1) % 65536 ∨ src.height ≤ (65535 + 1) % 65536) := by omega
      have made := kept (dst.height - 1) 0 row (by omega)
      simp only [upscaled, last, across, if_neg inner] at made
      exact Or.inl (rgb565Mix_wraps made (by norm_num))
    · exact Or.inr ⟨by omega, by omega⟩

end Upscaled

private theorem level_zero (level : Level word) (black : rgb565ToR5 word = 0) : word = 0 := by
  have fields := r5G6B5_fields word
  rw [← level.1, ← level.2, black] at fields
  exact fields.symm

private theorem upscaled_edge {source target i : Nat} (line : source = 1) (inside : i < target) :
    source ≤ (cell source target i + 1) % 65536 := by
  have first := Bilinear.cell_lt (by omega : 0 < source) inside
  omega

private theorem upscaled_iff (some : 0 < src.width) (tall : 0 < src.height) (narrow : src.width ≤ 65536)
    (low : src.height ≤ 65536) (wider : src.width ≤ dst.width) (higher : src.height ≤ dst.height) :
    (∀ y x, y < dst.height → x < dst.width → upscaled src dst word y x = Option.some word) ↔
      src.width = 1 ∨ src.height = 1 ∨ Level word ∧ (word = 0 ∨ src.width < 65536 ∧ src.height < 65536) := by
  constructor
  · intro kept
    by_cases line : src.width = 1 ∨ src.height = 1
    · exact line.elim Or.inl fun one => Or.inr (Or.inl one)
    · have level : Level word := level_of_upscaled (by omega) (by omega) wider higher kept
      refine Or.inr (Or.inr ⟨level, ?_⟩)
      exact (narrow_of_upscaled (by omega) (by omega) narrow low wider higher kept).imp_left (level_zero level)
  · rintro (line | line | ⟨level, black | ⟨own, short⟩⟩) y x row column
    · exact if_pos (Or.inl (upscaled_edge line column))
    · exact if_pos (Or.inr (upscaled_edge line row))
    · simp only [upscaled]
      split
      next => rfl
      next => rw [black, rgb565Mix_black]
    · have across := Bilinear.cell_lt some column
      have down := Bilinear.cell_lt tall row
      simp only [upscaled]
      rw [Nat.mod_eq_of_lt (by omega : cell src.width dst.width x + 1 < 65536),
        Nat.mod_eq_of_lt (by omega : cell src.height dst.height y + 1 < 65536)]
      split
      next => rfl
      next => rw [rgb565Mix_level level]

/-- Which RGB565 images keep their colour when they are scaled up: rows and columns, and the gray ones whose green, as a number, is
as much as red and blue. -/
def WordsKept (src : Image) (word : UInt16) : Prop :=
  src.width ≤ 65536 ∧ src.height ≤ 65536 ∧
    (src.width = 1 ∨ src.height = 1 ∨ Level word ∧ (word = 0 ∨ src.width < 65536 ∧ src.height < 65536))

instance (src : Image) (word : UInt16) : Decidable (WordsKept src word) :=
  inferInstanceAs (Decidable (_ ∧ _ ∧ (_ ∨ _ ∨ _ ∧ (_ ∨ _ ∧ _))))

/-- The value of an element whose words are all one. -/
theorem element_value {reads : List Nat} {value : List UInt16 → Option UInt16} {result : UInt16 → Option UInt16}
    (inside : ∀ i ∈ reads, i < src.count) (same : ∀ i, i < src.count → rgb565At source i = word)
    (made : ∀ word, value (List.replicate reads.length word) = result word) : value (reads.map (rgb565At source)) = result word := by
  rw [List.map_eq_replicate_iff.mpr fun i member => same i (inside i member), made]

namespace Coloured

variable (coloured : src.Coloured source colour)
include coloured

private theorem element (rgb : src.format = .rgb565) {i : Nat} (inside : i < src.count) : rgb565At source i = wordOf colour := by
  rw [← coloured.uniform i inside, rgb, wordOf_texel]

private theorem paint_words (rgb : src.format = .rgb565) (count : Nat) :
    src.format.paint count colour = fun a => (bytes16 (wordOf colour)).getD (a % 2) 0 := by
  have two : colour.length = 2 := by
    rw [coloured.bytes, rgb]
    rfl
  obtain ⟨low, high, rfl⟩ := List.length_eq_two.mp two
  have bytes : bytes16 (wordOf [low, high]) = [low, high] := bytes_word low high
  rw [bytes, rgb]
  rfl

private theorem up_element (rgb : src.format = .rgb565) (room : dst.Room) (narrow : src.width ≤ 65536) (low : src.height ≤ 65536)
    (row : y < dst.height) (column : x < dst.width) :
    ∃ reads value, (∀ i ∈ reads, i < src.count) ∧ src.rgb565Up dst y x = wordSteps (y * dst.width + x) reads value ∧
      value (reads.map (rgb565At source)) = upscaled src dst (wordOf colour) y x := by
  obtain ⟨reads, value, inside, steps, made⟩ := rgb565Up_element coloured.fits room.fits coloured.some coloured.tall narrow low row column
  exact ⟨reads, value, inside, steps, element_value inside (fun i => coloured.element rgb) made⟩

theorem rgb565_makes_iff (rgb : src.format = .rgb565) (room : dst.Room) (other : ¬ (src.width = dst.width ∧ src.height = dst.height)) :
    Makes source (src.count * src.bpp) (dst.count * src.bpp) (rgb565Resize src dst) (dst.count * src.bpp)
      (src.format.paint dst.count colour) ↔ dst.width < src.width ∨ dst.height < src.height ∨ WordsKept src (wordOf colour) := by
  have two : src.bpp = 2 := by
    rw [coloured.sized.bpp, rgb]
    rfl
  have same := fun i (inside : i < src.count) => coloured.element rgb inside
  rw [rgb565Resize, if_neg other, two, coloured.paint_words rgb]
  by_cases down : src.width > dst.width ∨ src.height > dst.height
  · rw [if_pos down]
    refine ⟨fun _ => by omega, fun _ => ?_⟩
    refine (words_makes_iff (fun y x row column => ?_) (wordOf colour)).mpr fun y x row column => rfl
    obtain ⟨reads, value, inside, steps, made⟩ := rgb565Down_element coloured.fits room.fits coloured.some coloured.tall row column
    exact ⟨reads, value, inside, steps, element_value inside same made⟩
  · rw [if_neg down]
    have wider : src.width ≤ dst.width := by omega
    have higher : src.height ≤ dst.height := by omega
    have values := fun narrow low =>
      words_makes_iff (fun y x row column => coloured.up_element rgb room narrow low (y := y) (x := x) row column) (wordOf colour)
    constructor
    · intro makes
      obtain ⟨narrow, low⟩ := rgb565Up_narrow room.wide room.high coloured.some coloured.tall wider higher makes.complete.2
      have kept := (upscaled_iff coloured.some coloured.tall narrow low wider higher).mp ((values narrow low).mp makes)
      exact Or.inr (Or.inr ⟨narrow, low, kept⟩)
    · rintro (narrower | lower | ⟨narrow, low, kept⟩)
      · omega
      · omega
      · exact (values narrow low).mpr ((upscaled_iff coloured.some coloured.tall narrow low wider higher).mpr kept)

end Coloured

end Image

end ArduinoK210.Imaging
