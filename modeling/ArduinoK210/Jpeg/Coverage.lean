import ArduinoK210.Jpeg.Block

/-! One encode reads the image once and nothing else, when the last pair of blocks of a subsampled row or column reaches
the edge. Otherwise the second block of that pair lies behind the edge, where the unsigned remainder has wrapped around
and is no reason to skip it. -/

namespace ArduinoK210.Jpeg

open Stride (stridesUntil)

structure Covers (src : ImageInfo) (result : Int × List Mcu) : Prop where
  inside : ∀ mcu ∈ result.2, ∀ sample ∈ mcu.samples, ∀ a ∈ sample.bytes,
    a < src.w * src.h * src.pixfmt.bpp ∧
      ∃ x y, x < src.w ∧ y < src.h ∧ mcu.Shows x y ∧ a ∈ src.pixelBytes x y
  once : result.1 = 0 → ∀ x y, x < src.w → y < src.h → result.2.flatMap (·.luma (src.pixelBytes x y)) = [(x, y)]
  zero : ∀ mcu ∈ result.2, ∀ index, index < mcuSize →
    src.w ≤ mcu.xOffset + index % mcuW ∨ src.h ≤ mcu.yOffset + index / mcuW →
      mcu.y0 index = some 0 ∧ (src.pixfmt ≠ .grayscale → mcu.cb index = some 0 ∧ mcu.cr index = some 0)

/-- The second of the last two blocks starts inside the image or right at its edge. -/
def Paired (size : Nat) : Prop := size % 16 = 0 ∨ 8 ≤ size % 16

instance (size : Nat) : Decidable (Paired size) := inferInstanceAs (Decidable (_ ∨ _))

def Fits (src : ImageInfo) : Subsampling → Prop
  | .auto | .s444 => True
  | .s422 => Paired src.w
  | .s420 => Paired src.w ∧ Paired src.h

section Rounds

variable {src : ImageInfo}

/-- The rounds that go over the image in steps of `stepX` and `stepY`. -/
structure Steps (src : ImageInfo) (stepX stepY : Nat) (round : Nat → Nat → List Mcu) : Prop where
  right : ∀ y x, y < src.h → x < src.w → y % stepY = 0 → x % stepX = 0 → ∀ mcu ∈ round y x, mcu.Right src
  luma : ∀ y x, y < src.h → x < src.w → y % stepY = 0 → x % stepX = 0 → ∀ px py, px < src.w → py < src.h →
    (round y x).flatMap (·.luma (src.pixelBytes px py)) =
      if x ≤ px ∧ px < x + stepX then if y ≤ py ∧ py < y + stepY then [(px, py)] else [] else []

private theorem Steps.covers {stepX stepY : Nat} {round : Nat → Nat → List Mcu} (steps : Steps src stepX stepY round)
    (positiveX : 0 < stepX) (positiveY : 0 < stepY) (overflow : List Mcu → Bool) :
    Covers src
      (if (stridesUntil overflow stepY src.h positiveY (mcuRow src stepX positiveX round) [] 0).2 then -2 else 0,
        (stridesUntil overflow stepY src.h positiveY (mcuRow src stepX positiveX round) [] 0).1) := by
  have right : ∀ mcu ∈ (stridesUntil overflow stepY src.h positiveY (mcuRow src stepX positiveX round) [] 0).1,
      mcu.Right src := by
    intro mcu member
    rcases Stride.stridesUntil_sublist overflow [] 0 member with none | member
    · exact absurd none List.not_mem_nil
    · obtain ⟨j, row, member⟩ := Stride.mem_strides.mp member
      obtain ⟨k, column, member⟩ := Stride.mem_strides.mp member
      rw [Nat.zero_add] at row column member
      rw [Nat.zero_add] at member
      exact steps.right _ _ row column (Nat.mul_mod_left _ _) (Nat.mul_mod_left _ _) mcu member
  refine ⟨fun mcu member sample read a byte => ?_, fun returned x y column row => ?_, fun mcu member => (right mcu member).zero⟩
  · obtain ⟨x, y, column, row, shown, found⟩ := (right mcu member).inside sample read a byte
    exact ⟨ImageInfo.pixelBytes_lt column row found, x, y, column, row, shown, found⟩
  · have finished : (stridesUntil overflow stepY src.h positiveY (mcuRow src stepX positiveX round) [] 0).2 = false := by
      by_contra stopped
      rw [Bool.not_eq_false] at stopped
      simp [stopped] at returned
    show List.flatMap _ (stridesUntil overflow stepY src.h positiveY (mcuRow src stepX positiveX round) [] 0).1 = _
    rw [Stride.stridesUntil_finished finished, List.nil_append]
    refine (Stride.strides_flatMap row (Nat.zero_mod _) ?_).trans (if_pos (Nat.zero_le _))
    intro yOffset rowInside rowAligned
    refine (Stride.strides_flatMap column (Nat.zero_mod _) ?_).trans (if_pos (Nat.zero_le _))
    intro xOffset columnInside columnAligned
    exact steps.luma yOffset xOffset rowInside columnInside rowAligned columnAligned x y column row

private theorem half_at (yOffset dy xOffset : Nat) :
    (half src yOffset dy xOffset).xOffset = xOffset ∧ (half src yOffset dy xOffset).yOffset = yOffset := by
  rw [half]
  split <;> exact ⟨rfl, rfl⟩

private theorem quarter_at (yOffset xOffset : Nat) :
    (quarter src yOffset xOffset).xOffset = xOffset ∧ (quarter src yOffset xOffset).yOffset = yOffset := by
  rw [quarter]
  split <;> exact ⟨rfl, rfl⟩

/-- A block at the edge has nothing left of the image, and is skipped. -/
theorem imMin_remaining {bound size offset : Nat} (positive : 0 < bound) (inside : offset ≤ size) (small : size + 32 ≤ 2 ^ 31) :
    0 < imMin bound (remaining size offset) ↔ offset < size := by
  rw [remaining_inside inside small]
  unfold imMin
  split <;> omega

private theorem half_right (valid : src.Valid) {yOffset xOffset : Nat} (row : yOffset < src.h) (column : xOffset ≤ src.w) :
    (half src yOffset (imMin mcuH (remaining src.h yOffset)) xOffset).Right src := by
  have left : 0 < imMin mcuW (remaining src.w xOffset) ↔ xOffset < src.w :=
    imMin_remaining (by decide) column valid.w_lt
  by_cases inside : xOffset < src.w
  · rw [half, if_pos (left.mpr inside)]
    exact jpegGetMcu_right valid inside row
  · rw [half, if_neg (fun some => inside (left.mp some))]
    exact blank_right (.inl (Nat.le_of_not_lt inside))

private theorem quarter_right (valid : src.Valid) {yOffset xOffset : Nat} (row : yOffset ≤ src.h) (column : xOffset ≤ src.w) :
    (quarter src yOffset xOffset).Right src := by
  have leftX : 0 < imMin mcuW (remaining src.w xOffset) ↔ xOffset < src.w :=
    imMin_remaining (by decide) column valid.w_lt
  have leftY : 0 < imMin mcuH (remaining src.h yOffset) ↔ yOffset < src.h :=
    imMin_remaining (by decide) row valid.h_lt
  by_cases inside : xOffset < src.w ∧ yOffset < src.h
  · rw [quarter, if_pos ⟨leftX.mpr inside.1, leftY.mpr inside.2⟩]
    exact jpegGetMcu_right valid inside.1 inside.2
  · rw [quarter, if_neg (fun some => inside ⟨leftX.mp some.1, leftY.mp some.2⟩)]
    exact blank_right (by omega)

private theorem shows_ite {mcu : Mcu} {yOffset xOffset : Nat} (place : mcu.xOffset = xOffset ∧ mcu.yOffset = yOffset) (x y : Nat) :
    (if mcu.Shows x y then [(x, y)] else []) =
      if xOffset ≤ x ∧ x < xOffset + mcuW then if yOffset ≤ y ∧ y < yOffset + mcuH then [(x, y)] else [] else [] := by
  rw [← place.1, ← place.2]
  exact ite_and ..

private theorem steps444 (valid : src.Valid) : Steps src mcuW mcuH (mcu444 src) := by
  have right {y x : Nat} (row : y < src.h) (column : x < src.w) := jpegGetMcu_right valid column row
  constructor
  · intro y x row column _ _ mcu member
    rw [List.mem_singleton.mp member]
    exact right row column
  · intro y x row column _ _ px py inColumn inRow
    rw [mcu444, List.flatMap_singleton, (right row column).luma px py inColumn inRow]
    exact shows_ite ⟨rfl, rfl⟩ px py

theorem paired_le {size offset : Nat} (paired : Paired size) (inside : offset < size) (aligned : offset % (mcuW * 2) = 0) :
    offset + mcuW ≤ size := by
  simp only [Paired, mcuW] at *
  omega

private theorem steps422 (valid : src.Valid) (paired : Paired src.w) : Steps src (mcuW * 2) mcuH (mcu422 src) := by
  constructor
  · intro y x row column _ aligned mcu member
    have second := paired_le paired column aligned
    rcases List.mem_pair.mp member with rfl | rfl
    · exact half_right valid row (Nat.le_of_lt column)
    · exact half_right valid row second
  · intro y x row column _ aligned px py inColumn inRow
    have first := half_right valid row (Nat.le_of_lt column)
    have second := half_right valid row (paired_le paired column aligned)
    rw [mcu422, List.flatMap_cons, List.flatMap_singleton, first.luma px py inColumn inRow,
      second.luma px py inColumn inRow, shows_ite (half_at ..), shows_ite (half_at ..)]
    exact Stride.bands _

private theorem steps420 (valid : src.Valid) (paired : Paired src.w ∧ Paired src.h) :
    Steps src (mcuW * 2) (mcuH * 2) (mcu420 src) := by
  constructor
  · intro y x row column rowAligned columnAligned mcu member
    have below := paired_le paired.2 row rowAligned
    have beside := paired_le paired.1 column columnAligned
    simp only [mcu420, List.mem_cons, List.not_mem_nil, or_false] at member
    rcases member with rfl | rfl | rfl | rfl
    · exact quarter_right valid (Nat.le_of_lt row) (Nat.le_of_lt column)
    · exact quarter_right valid (Nat.le_of_lt row) beside
    · exact quarter_right valid below (Nat.le_of_lt column)
    · exact quarter_right valid below beside
  · intro y x row column rowAligned columnAligned px py inColumn inRow
    have below : y + mcuH ≤ src.h := paired_le paired.2 row rowAligned
    have beside := paired_le paired.1 column columnAligned
    have luma {y x : Nat} (row : y ≤ src.h) (column : x ≤ src.w) :=
      ((quarter_right valid row column).luma px py inColumn inRow).trans (shows_ite (quarter_at y x) px py)
    simp only [mcu420, List.flatMap_cons, List.flatMap_nil, List.append_nil]
    rw [luma (Nat.le_of_lt row) (Nat.le_of_lt column), luma (Nat.le_of_lt row) beside, luma below (Nat.le_of_lt column),
      luma below beside, ← List.append_assoc, Stride.bands, Stride.bands]
    split
    next inside => exact Stride.bands _
    next => rfl

private theorem imMin_full {a b : Nat} (enough : a ≤ b) : imMin a b = a := by
  unfold imMin
  split <;> omega

theorem Covers.reached {result : Int × List Mcu} (covers : Covers src result) (valid : src.Valid) {xOffset yOffset dx dy : Nat}
    (member : jpegGetMcu src xOffset yOffset dx dy ∈ result.2) (wide : 1 ≤ dx) (most : dx ≤ mcuW) (tall : 1 ≤ dy) :
    xOffset < src.w ∧ yOffset < src.h := by
  obtain ⟨sample, read, bytes⟩ := mcuSamples_some valid.format xOffset yOffset wide most tall
  obtain ⟨a, byte⟩ := List.exists_mem_of_ne_nil _ bytes
  obtain ⟨_, x, y, column, row, shown, _⟩ := covers.inside _ member sample read a byte
  have left : xOffset ≤ x := shown.1.1
  have above : yOffset ≤ y := shown.2.1
  omega

theorem unpaired {size : Nat} (odd : ¬Paired size) :
    0 + size / 16 * (mcuW * 2) < size ∧ size < 0 + size / 16 * (mcuW * 2) + mcuW ∧
      0 + size / 16 * (mcuW * 2) + mcuW ≤ size + 16 := by
  simp only [Paired, mcuW] at *
  omega

private theorem half_outside {yOffset dy xOffset : Nat} (outside : src.w < xOffset) (near : xOffset ≤ src.w + 16) :
    half src yOffset dy xOffset = jpegGetMcu src xOffset yOffset mcuW dy := by
  have full := imMin_full (remaining_outside outside near)
  simp only [half, full]
  rfl

private theorem quarter_beside {yOffset xOffset : Nat} (valid : src.Valid) (row : yOffset < src.h) (outside : src.w < xOffset)
    (near : xOffset ≤ src.w + 16) :
    quarter src yOffset xOffset = jpegGetMcu src xOffset yOffset mcuW (imMin mcuH (remaining src.h yOffset)) := by
  have full := imMin_full (remaining_outside outside near)
  have some : 0 < imMin mcuH (remaining src.h yOffset) :=
    (imMin_remaining (by decide) (Nat.le_of_lt row) valid.h_lt).mpr row
  simp only [quarter, full]
  exact if_pos ⟨by decide, some⟩

private theorem quarter_below {yOffset xOffset : Nat} (valid : src.Valid) (column : xOffset < src.w) (outside : src.h < yOffset)
    (near : yOffset ≤ src.h + 16) :
    quarter src yOffset xOffset = jpegGetMcu src xOffset yOffset (imMin mcuW (remaining src.w xOffset)) mcuH := by
  have full : imMin mcuH (remaining src.h yOffset) = mcuH := imMin_full (remaining_outside outside near)
  have some : 0 < imMin mcuW (remaining src.w xOffset) :=
    (imMin_remaining (by decide) (Nat.le_of_lt column) valid.w_lt).mpr column
  simp only [quarter, full]
  exact if_pos ⟨some, by decide⟩

/-- A block of the round at given multiples of the steps is a block of the encode. -/
theorem mem_rounds {stepX stepY : Nat} {positiveX : 0 < stepX} {positiveY : 0 < stepY} {round : Nat → Nat → List Mcu}
    {mcu : Mcu} (j k : Nat) (row : 0 + j * stepY < src.h) (column : 0 + k * stepX < src.w)
    (member : mcu ∈ round (0 + j * stepY) (0 + k * stepX)) :
    mcu ∈ (stridesUntil (fun _ => false) stepY src.h positiveY (mcuRow src stepX positiveX round) [] 0).1 := by
  rw [Stride.stridesUntil_never]
  exact Stride.mem_strides.mpr ⟨j, row, Stride.mem_strides.mpr ⟨k, column, member⟩⟩

/-- The blocks of an encode that goes through, with its result. -/
def whole (src : ImageInfo) (chosen : Subsampling) : Int × List Mcu :=
  (if (encode src (fun _ => false) chosen).2 then -2 else 0, (encode src (fun _ => false) chosen).1)

private theorem paired_of_whole422 (valid : src.Valid) (covers : Covers src (whole src .s422)) : Paired src.w := by
  by_contra odd
  obtain ⟨reached, outside, near⟩ := unpaired odd
  have tall : 0 < imMin mcuH (remaining src.h (0 + 0 * mcuH)) :=
    (imMin_remaining (by decide) (Nat.zero_le _) valid.h_lt).mpr valid.tall
  have member : half src (0 + 0 * mcuH) (imMin mcuH (remaining src.h (0 + 0 * mcuH)))
      (0 + src.w / 16 * (mcuW * 2) + mcuW) ∈ (whole src .s422).2 :=
    mem_rounds 0 (src.w / 16) valid.tall reached (.tail _ (.head _))
  rw [half_outside outside near] at member
  have inside := (covers.reached valid member (by decide) (Nat.le_refl _) tall).1
  omega

private theorem paired_of_whole420 (valid : src.Valid) (covers : Covers src (whole src .s420)) : Paired src.w ∧ Paired src.h := by
  constructor
  · by_contra odd
    obtain ⟨reached, outside, near⟩ := unpaired odd
    have row : 0 + 0 * (mcuH * 2) < src.h := valid.tall
    have tall : 0 < imMin mcuH (remaining src.h (0 + 0 * (mcuH * 2))) :=
      (imMin_remaining (by decide) (Nat.zero_le _) valid.h_lt).mpr row
    have member : quarter src (0 + 0 * (mcuH * 2)) (0 + src.w / 16 * (mcuW * 2) + mcuW) ∈ (whole src .s420).2 :=
      mem_rounds 0 (src.w / 16) row reached (.tail _ (.head _))
    rw [quarter_beside valid row outside near] at member
    have inside := (covers.reached valid member (by decide) (Nat.le_refl _) tall).1
    omega
  · by_contra odd
    obtain ⟨reached, outside, near⟩ : 0 + src.h / 16 * (mcuH * 2) < src.h ∧
      src.h < 0 + src.h / 16 * (mcuH * 2) + mcuH ∧ 0 + src.h / 16 * (mcuH * 2) + mcuH ≤ src.h + 16 := unpaired odd
    have column : 0 + 0 * (mcuW * 2) < src.w := valid.wide
    have wide : 0 < imMin mcuW (remaining src.w (0 + 0 * (mcuW * 2))) :=
      (imMin_remaining (by decide) (Nat.zero_le _) valid.w_lt).mpr column
    have member : quarter src (0 + src.h / 16 * (mcuH * 2) + mcuH) (0 + 0 * (mcuW * 2)) ∈ (whole src .s420).2 :=
      mem_rounds (src.h / 16) 0 reached column (.tail _ (.tail _ (.head _)))
    rw [quarter_below valid column outside near] at member
    have inside := (covers.reached valid member wide (imMin_le _ _).1 (by decide)).2
    omega

end Rounds

private theorem jpegCompress_valid {src : ImageInfo} (valid : src.Valid) (room : Nat) (quality : Int) (requested : Subsampling)
    (overflow : List Mcu → Bool) :
    jpegCompress (some src) (some (room + 1)) quality requested overflow =
      (if (encode src overflow (subsampling src quality requested)).2 then -2 else 0,
        (encode src overflow (subsampling src quality requested)).1) := by
  have sized : ¬(src.w = 0 ∨ src.h = 0) := by
    have wide := valid.wide
    have tall := valid.tall
    omega
  have given : ¬(some (room + 1) = none ∨ some (room + 1) = some 0) := by simp
  simp only [jpegCompress]
  rw [if_neg sized, if_neg given, if_neg valid.format]

/-- Every encode of the image reads each pixel once and nothing beside the image, whatever becomes of the output, exactly
when the pairs of blocks fit. -/
theorem encode_covers_iff {src : ImageInfo} (valid : src.Valid) (room : Nat) (quality : Int) (requested : Subsampling) :
    (∀ overflow, Covers src (jpegCompress (some src) (some (room + 1)) quality requested overflow)) ↔
      Fits src (subsampling src quality requested) := by
  simp only [jpegCompress_valid valid]
  have selected := subsampling_ne_auto src quality requested
  cases chosen : subsampling src quality requested with
  | auto => exact absurd chosen selected
  | s444 => exact iff_of_true (fun overflow => (steps444 valid).covers (by decide) (by decide) overflow) trivial
  | s422 =>
    constructor
    · intro covers
      exact paired_of_whole422 valid (covers fun _ => false)
    · intro paired overflow
      exact (steps422 valid paired).covers (by decide) (by decide) overflow
  | s420 =>
    constructor
    · intro covers
      exact paired_of_whole420 valid (covers fun _ => false)
    · intro paired overflow
      exact (steps420 valid paired).covers (by decide) (by decide) overflow

/-- Twenty columns make two rounds, and the second block of the second starts four columns behind the edge. -/
def twenty : ImageInfo := ⟨20, 8, fun _ => 0, .rgb565⟩

private theorem twenty_valid : twenty.Valid := ⟨by decide, by decide, by decide, by decide⟩

theorem encode_covers_good : Covers twenty (jpegCompress (some twenty) (some 1024) 80 .auto fun _ => false) :=
  (encode_covers_iff twenty_valid 1023 80 .auto).mpr trivial fun _ => false

theorem encode_overruns :
    ¬∀ src : ImageInfo, src.Valid → ∀ (room : Nat) (quality : Int) (requested : Subsampling) (overflow : List Mcu → Bool),
      Covers src (jpegCompress (some src) (some (room + 1)) quality requested overflow) := by
  intro claim
  have covers := claim twenty twenty_valid 1023 50 .auto fun _ => false
  rw [jpegCompress_valid twenty_valid] at covers
  have paired := paired_of_whole422 twenty_valid covers
  exact absurd paired (by decide)

end ArduinoK210.Jpeg
