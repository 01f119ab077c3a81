import ArduinoK210.Imaging.Resize

/-! Which bytes `Image::resize` reads and writes. -/

namespace ArduinoK210.Imaging

open Bilinear (truncate centre start cell)
open Gather (Step Safe Covers raster)

section Conversion
variable {source target i : Nat}

theorem toUnsigned_centre (bits : Nat) (positive : 0 < target) :
    toUnsigned bits (centre source target i) = if cell source target i < 2 ^ bits then some (cell source target i) else none := by
  have fits : (cell source target i : Int) < 2 ^ bits ↔ cell source target i < 2 ^ bits := by norm_cast
  simp only [toUnsigned, Bilinear.truncate_centre positive, Int.natCast_nonneg, true_and, fits, Int.toNat_natCast]

private theorem start_toNat (source target i : Nat) : (truncate (start source target i)).toNat = i * source / target := by
  rw [Bilinear.truncate_start, Int.toNat_natCast]

theorem start_lt (some : 0 < source) (inside : i < target) : i * source / target < source := by
  rw [Nat.div_lt_iff_lt_mul (Nat.zero_lt_of_lt inside), Nat.mul_comm source]
  exact Nat.mul_lt_mul_of_pos_right inside some

private theorem toU32_natCast (value : Nat) : toU32 value = u32 value := by
  rw [toU32, u32, ← Int.natCast_emod, Int.toNat_natCast]

end Conversion

section Words
variable {dst size capacity : Nat} {reads : List Nat} {value : List UInt16 → Option UInt16}

private theorem wordSteps_within (inside : ∀ i ∈ reads, i < size) (place : dst < capacity) :
    ∀ step ∈ wordSteps dst reads value, step.Within (size * 2) (capacity * 2) := by
  have bytes : ∀ read ∈ reads.flatMap fun i => [((i * 2 : Nat) : Int), ((i * 2 + 1 : Nat) : Int)], 0 ≤ read ∧ read < (size * 2 : Nat) := by
    intro read here
    obtain ⟨i, member, at'⟩ := List.mem_flatMap.mp here
    have below := inside i member
    simp only [List.mem_cons, List.not_mem_nil, or_false] at at'
    omega
  intro step here
  simp only [wordSteps, List.mem_cons, List.not_mem_nil, or_false] at here
  rcases here with rfl | rfl
  · exact ⟨bytes, by dsimp only; omega⟩
  · exact ⟨bytes, by dsimp only; omega⟩

private theorem wordSteps_writes {k : Nat} (byte : k < 2) : ∃ step ∈ wordSteps dst reads value, step.dst = (dst * 2 + k : Nat) := by
  match k, byte with
  | 0, _ => exact ⟨_, List.mem_cons_self, rfl⟩
  | 1, _ => exact ⟨_, List.mem_cons_of_mem _ List.mem_cons_self, rfl⟩

end Words

namespace Image

variable {image src dst : Image} {x y : Nat}

theorem index_lt (row : y < image.height) (column : x < image.width) : y * image.width + x < image.count := Raster.row_lt row column

theorem index_fits (small : image.count < u32Range) (row : y < image.height) (column : x < image.width) :
    u32 (y * image.width + x) = y * image.width + x := u32_fits ((index_lt row column).trans small)

private theorem index_fits' (small : image.count < u32Range) (row : y < image.height) (column : x < image.width) :
    u32 (x + y * image.width) = y * image.width + x := by
  rw [Nat.add_comm]
  exact index_fits small row column

/-- What is required of the steps: no access outside the pixels, and none of the new pixels left out. -/
structure Bounded (src dst : Image) (steps : List (Step UInt8)) : Prop where
  safe : Safe steps (src.count * src.bpp) (dst.count * src.bpp)
  covers : Covers steps (dst.count * src.bpp)

/-- A copy of the whole buffer is one of all pixels when its size does not wrap. -/
theorem copyAll_bounded_iff (same : dst.count = src.count) : Bounded src dst src.copyAll ↔ src.count * src.bpp < u32Range := by
  have members : ∀ step, step ∈ src.copyAll ↔ ∃ i, i < u32 (src.count * src.bpp) ∧ Step.move (i : Int) i = step := by
    simp [copyAll, Image.count]
  constructor
  · intro bounded
    by_contra wraps
    have short : u32 (src.count * src.bpp) < u32Range := Nat.mod_lt _ (by decide)
    obtain ⟨step, inside, place⟩ := bounded.covers (u32 (src.count * src.bpp)) (by rw [same]; exact short.trans_le (not_lt.mp wraps))
    obtain ⟨i, below, rfl⟩ := (members step).mp inside
    have here : (i : Int) = u32 (src.count * src.bpp) := place
    omega
  · intro small
    have whole : u32 (src.count * src.bpp) = src.count * src.bpp := u32_fits small
    rw [whole] at members
    refine ⟨fun step inside => ?_, fun a inside => ?_⟩
    · obtain ⟨i, below, rfl⟩ := (members step).mp inside
      rw [Step.move_within, same]
      omega
    · exact ⟨_, (members _).mpr ⟨a, by rwa [← same], rfl⟩, rfl⟩

/-- The ranges of rows and columns of scaling down are inclusive. -/
theorem grayDown_reads (src dst : Image) (y x : Nat) (rows : (y + 1) * src.height / dst.height < 2147483648)
    (columns : (x + 1) * src.height / dst.height < 2147483648) :
    ∃ step ∈ src.grayDown dst y x, ∀ yy xx, y * src.height / dst.height ≤ yy → yy ≤ (y + 1) * src.height / dst.height →
      x * src.height / dst.height ≤ xx → xx ≤ (x + 1) * src.height / dst.height →
      (u32 (yy * src.width + xx) : Int) ∈ step.reads := by
  simp only [grayDown, start_toNat, rows, columns, and_self, if_true, List.mem_singleton, exists_eq_left]
  intro yy xx first last left right
  refine List.mem_flatMap.mpr ⟨yy, ?_, List.mem_map.mpr ⟨xx, ?_, rfl⟩⟩
  · rw [List.mem_range'_1]
    omega
  · rw [List.mem_range'_1]
    omega

/-- The last row of scaling down reads the row behind the last one of the source. -/
theorem grayDown_leaves (wide : 0 < dst.width) (high : 0 < dst.height) (small : src.count < u32Range)
    (rows : src.height < 2147483648) (capacity : Nat) :
    ¬ Safe (raster dst.height dst.width (src.grayDown dst)) src.count capacity := by
  intro safe
  have last : (dst.height - 1 + 1) * src.height / dst.height = src.height := by
    rw [Nat.sub_add_cancel high, Nat.mul_div_cancel_left _ high]
  have first : (0 + 1) * src.height / dst.height ≤ src.height := by
    rw [Nat.zero_add, Nat.one_mul]
    exact Nat.div_le_self _ _
  obtain ⟨step, inside, reads⟩ := grayDown_reads src dst (dst.height - 1) 0 (last.trans_lt rows) (first.trans_lt rows)
  have before : (dst.height - 1) * src.height / dst.height ≤ src.height := by
    refine Nat.div_le_of_le_mul ?_
    exact Nat.mul_le_mul_right _ (Nat.sub_le _ _)
  have place := reads src.height 0 before last.ge (by rw [Nat.zero_mul, Nat.zero_div]) (Nat.zero_le _)
  have within := (safe step (Gather.mem_raster.mpr ⟨_, _, Nat.sub_lt high Nat.one_pos, wide, inside⟩)).1 _ place
  have count : src.height * src.width = src.count := Nat.mul_comm _ _
  rw [Nat.add_zero, count, u32_fits small] at within
  omega

theorem grayUpTaps_inside (small : src.count < u32Range) (some : 0 < src.width) (tall : 0 < src.height)
    (row : y < dst.height) (column : x < dst.width) : ∀ tap ∈ src.grayUpTaps dst y x, tap.2 < src.count := by
  have inside : ∀ Y X : Int, 0 ≤ Y → Y < src.height → 0 ≤ X → X < src.width → toU32 (Y * src.width + X) < src.count := by
    intro Y X zero below nonneg least
    lift Y to Nat using zero
    lift X to Nat using nonneg
    have index : ((Y : Int) * src.width + X) = ((Y * src.width + X : Nat) : Int) := by push_cast; rfl
    rw [index, toU32_natCast, index_fits small (by omega) (by omega)]
    exact index_lt (by omega) (by omega)
  have high := Nat.zero_lt_of_lt row
  have wide := Nat.zero_lt_of_lt column
  have rows := Bilinear.cell_lt tall row
  have columns := Bilinear.cell_lt some column
  simp only [grayUpTaps, Bilinear.truncate_centre high, Bilinear.truncate_centre wide, List.forall_mem_cons]
  refine ⟨?_, ?_, ?_, ?_, fun _ none => absurd none List.not_mem_nil⟩
  all_goals
    apply inside <;> omega

theorem grayUp_bounded (fits : src.count < u32Range) (small : dst.count < u32Range) (some : 0 < src.width) (tall : 0 < src.height) :
    Safe (raster dst.height dst.width (src.grayUp dst)) src.count dst.count ∧
      Covers (raster dst.height dst.width (src.grayUp dst)) dst.count := by
  constructor
  · refine Gather.forall_raster.mpr fun y x row column step inside => ?_
    rw [List.mem_singleton.mp inside]
    refine ⟨List.forall_mem_map.mpr fun tap here => ?_, ?_⟩
    · exact ⟨Int.natCast_nonneg _, Int.ofNat_lt.mpr (grayUpTaps_inside fits some tall row column tap here)⟩
    · rw [index_fits small row column]
      exact ⟨Int.natCast_nonneg _, Int.ofNat_lt.mpr (index_lt row column)⟩
  · rw [← Nat.mul_one dst.count]
    refine Gather.covers_raster .packed 1 fun y x k row column byte => ⟨_, List.mem_singleton_self _, ?_⟩
    have zero : k = 0 := by omega
    simp only [index_fits small row column, Raster.Layout.address, zero, Nat.mul_one, Nat.add_zero]

/-- A loop that assigns an element of each pixel from pixels of the source. -/
theorem words_bounded {rows width size : Nat} {pixel : Nat → Nat → List (Step UInt8)}
    (words : ∀ y x, y < rows → x < width → ∃ reads value, (∀ i ∈ reads, i < size) ∧
      pixel y x = wordSteps (y * width + x) reads value) :
    Safe (raster rows width pixel) (size * 2) (width * rows * 2) ∧ Covers (raster rows width pixel) (width * rows * 2) := by
  constructor
  · refine Gather.forall_raster.mpr fun y x row column => ?_
    obtain ⟨reads, value, inside, same⟩ := words y x row column
    rw [same]
    exact wordSteps_within inside (Raster.row_lt row column)
  · refine Gather.covers_raster .packed 2 fun y x k row column byte => ?_
    obtain ⟨reads, value, _, same⟩ := words y x row column
    rw [same]
    exact wordSteps_writes byte

theorem rgb565Down_element (fits : src.count < u32Range) (small : dst.count < u32Range) (some : 0 < src.width) (tall : 0 < src.height)
    (row : y < dst.height) (column : x < dst.width) :
    ∃ reads value, (∀ i ∈ reads, i < src.count) ∧ src.rgb565Down dst y x = wordSteps (y * dst.width + x) reads value ∧
      ∀ word, value (List.replicate reads.length word) = Option.some word := by
  have above := start_lt tall row
  have left := start_lt some column
  simp only [rgb565Down, start_toNat, index_fits small row column]
  refine ⟨_, _, ?_, rfl, fun _ => rfl⟩
  rw [List.forall_mem_singleton, index_fits fits above left]
  exact index_lt above left

theorem rgb565Down_bounded (fits : src.count < u32Range) (small : dst.count < u32Range) (some : 0 < src.width) (tall : 0 < src.height) :
    Safe (raster dst.height dst.width (src.rgb565Down dst)) (src.count * 2) (dst.count * 2) ∧
      Covers (raster dst.height dst.width (src.rgb565Down dst)) (dst.count * 2) := by
  refine words_bounded fun y x row column => ?_
  obtain ⟨reads, value, inside, same, _⟩ := rgb565Down_element fits small some tall row column
  exact ⟨reads, value, inside, same⟩

/-- The coordinates of scaling up, for a row or column whose cells fit in 16 bits. -/
theorem toUnsigned_cell {source target i : Nat} (narrow : source ≤ 65536) (some : 0 < source) (inside : i < target) :
    toUnsigned 16 (centre source target i) = Option.some (cell source target i) := by
  have below := Bilinear.cell_lt some inside
  rw [toUnsigned_centre 16 (Nat.zero_lt_of_lt inside), if_pos (by omega)]

/-- What scaling up makes of a pixel when all pixels of the source are one word. -/
def upscaled (src dst : Image) (word : UInt16) (y x : Nat) : Option UInt16 :=
  let x1 := cell src.width dst.width x
  let y1 := cell src.height dst.height y
  if src.width ≤ (x1 + 1) % 65536 ∨ src.height ≤ (y1 + 1) % 65536 then some word
  else
    rgb565Mix x1 y1 ((x1 + 1) % 65536) ((y1 + 1) % 65536) (centre src.width dst.width x) (centre src.height dst.height y)
      [word, word, word]

theorem rgb565Up_element (fits : src.count < u32Range) (small : dst.count < u32Range) (some : 0 < src.width) (tall : 0 < src.height)
    (narrow : src.width ≤ 65536) (low : src.height ≤ 65536) (row : y < dst.height) (column : x < dst.width) :
    ∃ reads value, (∀ i ∈ reads, i < src.count) ∧ src.rgb565Up dst y x = wordSteps (y * dst.width + x) reads value ∧
      ∀ word, value (List.replicate reads.length word) = upscaled src dst word y x := by
  have rows := Bilinear.cell_lt tall row
  have columns := Bilinear.cell_lt some column
  have here := index_fits' fits rows columns
  simp only [rgb565Up, toUnsigned_cell narrow some column, toUnsigned_cell low tall row, index_fits' small row column, upscaled]
  split
  next =>
    refine ⟨_, _, ?_, rfl, fun _ => rfl⟩
    rw [List.forall_mem_singleton, here]
    exact index_lt rows columns
  next inner =>
    simp only [ge_iff_le, not_or, not_le] at inner
    simp only [rgb565Inner, index_fits' small row column]
    refine ⟨_, _, ?_, rfl, fun _ => rfl⟩
    simp only [List.forall_mem_cons, List.not_mem_nil, false_implies, implies_true, and_true]
    rw [here, index_fits' fits rows inner.1, index_fits' fits inner.2 columns]
    exact ⟨index_lt rows columns, index_lt rows inner.1, index_lt inner.2 columns⟩

theorem rgb565Up_bounded (fits : src.count < u32Range) (small : dst.count < u32Range) (some : 0 < src.width) (tall : 0 < src.height)
    (narrow : src.width ≤ 65536) (low : src.height ≤ 65536) :
    Safe (raster dst.height dst.width (src.rgb565Up dst)) (src.count * 2) (dst.count * 2) ∧
      Covers (raster dst.height dst.width (src.rgb565Up dst)) (dst.count * 2) := by
  refine words_bounded fun y x row column => ?_
  obtain ⟨reads, value, inside, same, _⟩ := rgb565Up_element fits small some tall narrow low row column
  exact ⟨reads, value, inside, same⟩

theorem u32_le (value : Nat) : u32 value ≤ value := Nat.mod_le _ _

theorem u32_lt_range (value : Nat) : u32 value < u32Range := Nat.mod_lt _ (by decide)

theorem byte_lt {width height x y k : Nat} (row : y < height) (column : x < width) (byte : k < 3) :
    u32 ((y * width + x) * 3 + k) < width * height * 3 := by
  have cell := Raster.row_lt row column
  have below := u32_le ((y * width + x) * 3 + k)
  omega

theorem rgb888Down_mem (three : src.bpp = 3) (y x : Nat) (step : Step UInt8) : step ∈ src.rgb888Down dst y x ↔
    ∃ k < 3, Step.move (u32 ((y * dst.width + x) * 3 + k))
      (u32 ((y * src.height / dst.height * src.width + x * src.width / dst.width) * 3 + k)) = step := by
  simp only [rgb888Down, start_toNat, three, List.mem_map]
  refine exists_congr fun k => and_congr_left fun _ => ?_
  simp only [List.mem_cons, List.not_mem_nil, or_false]
  omega

theorem rgb888Down_bounded_iff (three : src.bpp = 3) (some : 0 < src.width) (tall : 0 < src.height) :
    (Safe (raster dst.height dst.width (src.rgb888Down dst)) (src.count * 3) (dst.count * 3) ∧
      Covers (raster dst.height dst.width (src.rgb888Down dst)) (dst.count * 3)) ↔ dst.count * 3 < u32Range := by
  have pixel : ∀ y x step, step ∈ src.rgb888Down dst y x ↔ _ := rgb888Down_mem three
  constructor
  · rintro ⟨_, covers⟩
    by_contra wraps
    have odd : dst.count * 3 ≠ u32Range := by
      unfold u32Range
      omega
    obtain ⟨step, inside, place⟩ := covers u32Range (by omega)
    obtain ⟨y, x, _, _, member⟩ := Gather.mem_raster.mp inside
    obtain ⟨k, _, rfl⟩ := (pixel y x step).mp member
    have below := u32_lt_range ((y * dst.width + x) * 3 + k)
    have here : ((u32 ((y * dst.width + x) * 3 + k) : Nat) : Int) = u32Range := place
    omega
  · intro small
    constructor
    · refine Gather.forall_raster.mpr fun y x row column step member => ?_
      obtain ⟨k, byte, rfl⟩ := (pixel y x step).mp member
      have read := byte_lt (start_lt tall row) (start_lt some column) byte
      have written := byte_lt row column byte
      rw [Step.move_within]
      exact ⟨⟨Int.natCast_nonneg _, Int.ofNat_lt.mpr read⟩, Int.natCast_nonneg _, Int.ofNat_lt.mpr written⟩
    · refine Gather.covers_raster .packed 3 fun y x k row column byte => ⟨_, (pixel y x _).mpr ⟨k, byte, rfl⟩, ?_⟩
      have cell := Raster.row_lt row column
      have total : dst.width * dst.height * 3 < u32Range := small
      rw [Raster.Layout.address, Step.move, u32_fits (by omega)]

theorem rgb888Up_dst (three : src.bpp = 3) (row : y < dst.height) (column : x < dst.width) {step : Step UInt8}
    (inside : step ∈ src.rgb888Up dst y x) :
    step.dst = 0 ∨ step.dst = u32 (x + y * dst.width) ∨
      (∃ k < 3, step.dst = u32 ((x + y * dst.width) * 3 + k)) ∧
        (cell src.width dst.width x + 1) % 65536 < src.width ∧ (cell src.height dst.height y + 1) % 65536 < src.height ∧
        cell src.width dst.width x < 65536 ∧ cell src.height dst.height y < 65536 := by
  simp only [rgb888Up, toUnsigned_centre 16 (Nat.zero_lt_of_lt row), toUnsigned_centre 16 (Nat.zero_lt_of_lt column)] at inside
  split at inside
  next x1 y1 first second =>
    obtain ⟨across, same⟩ := Option.ite_none_right_eq_some.mp first
    obtain ⟨down, alike⟩ := Option.ite_none_right_eq_some.mp second
    obtain rfl := Option.some.inj same
    obtain rfl := Option.some.inj alike
    split at inside
    next => exact Or.inr (Or.inl (congrArg Step.dst (List.mem_singleton.mp inside)))
    next inner =>
      simp only [ge_iff_le, not_or, not_le] at inner
      refine Or.inr (Or.inr ⟨?_, inner.1, inner.2, across, down⟩)
      simp only [rgb888Inner, three, List.mem_cons, List.not_mem_nil, or_false] at inside
      rcases inside with rfl | rfl | rfl
      · exact ⟨0, by decide, rfl⟩
      · exact ⟨1, by decide, rfl⟩
      · exact ⟨2, by decide, rfl⟩
  next => exact Or.inl (congrArg Step.dst (List.mem_singleton.mp inside))

/-- The last byte of the last pixel is never written, since that pixel is at an edge. -/
theorem rgb888Up_leaves (three : src.bpp = 3) (some : 0 < src.width) (tall : 0 < src.height) (wider : src.width ≤ dst.width)
    (higher : src.height ≤ dst.height) (fits : src.count < u32Range) :
    ¬ Covers (raster dst.height dst.width (src.rgb888Up dst)) (dst.count * 3) := by
  intro covers
  have cells : 0 < dst.count := Nat.mul_pos (some.trans_le wider) (tall.trans_le higher)
  obtain ⟨step, inside, place⟩ := covers (dst.count * 3 - 1) (by omega)
  obtain ⟨y, x, row, column, member⟩ := Gather.mem_raster.mp inside
  have index := index_lt row column
  have below := u32_le (x + y * dst.width)
  rcases rgb888Up_dst three row column member with zero | edge | ⟨⟨k, byte, inner⟩, across, down, left, above⟩
  · omega
  · omega
  · have most := u32_le ((x + y * dst.width) * 3 + k)
    have last : x + y * dst.width = dst.count - 1 := by omega
    have bottom : y = dst.height - 1 := by
      by_contra other
      have next : y + 2 ≤ dst.height := by omega
      have rows := Nat.mul_le_mul_left dst.width next
      have area : dst.width * dst.height = dst.count := rfl
      rw [Nat.mul_add, Nat.mul_comm dst.width y] at rows
      omega
    have right : x = dst.width - 1 := by
      have area : (dst.height - 1) * dst.width + dst.width = dst.count := by
        rw [← Nat.succ_mul, Nat.succ_eq_add_one, Nat.sub_add_cancel (by omega), Nat.mul_comm]
        rfl
      rw [bottom] at last
      omega
    have columns := (Bilinear.cell_last_iff some (some.trans_le wider)).mpr wider
    have rows := (Bilinear.cell_last_iff tall (tall.trans_le higher)).mpr higher
    rw [← right] at columns
    rw [← bottom] at rows
    have furthest := Bilinear.cell_lt some column
    have lowest := Bilinear.cell_lt tall row
    have across' : src.width = 65536 := by omega
    have down' : src.height = 65536 := by omega
    rw [Image.count, across', down'] at fits
    exact absurd fits (by decide)

end Image
end ArduinoK210.Imaging
