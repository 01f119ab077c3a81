import ArduinoK210.Jpeg.Mcu

/-! Which bytes of the image one block reads, and for which of its entries. -/

namespace ArduinoK210.Jpeg

open Imaging (Format u32 u32Range)

namespace ImageInfo

variable (src : ImageInfo)

def pixelBytes (x y : Nat) : List Nat :=
  (List.range src.pixfmt.bpp).map (src.pixfmt.layout.address (src.w * src.h) src.pixfmt.bpp (src.w * y + x))

/-- An image with a buffer. An `int` goes beyond its addresses. -/
structure Valid : Prop where
  wide : 1 ≤ src.w
  tall : 1 ≤ src.h
  format : src.pixfmt ≠ .invalid
  addresses : src.w * src.h * src.pixfmt.bpp + 2 * (mcuW + mcuH) ≤ 2 ^ 31

variable {src}

private theorem Valid.bpp_pos (valid : src.Valid) : 0 < src.pixfmt.bpp := by
  have format := valid.format
  cases same : src.pixfmt <;> simp_all [Format.bpp]

private theorem Valid.area_lt (valid : src.Valid) : src.w * src.h + 32 ≤ 2 ^ 31 := by
  have more := Nat.le_mul_of_pos_right (src.w * src.h) valid.bpp_pos
  have addresses := valid.addresses
  simp only [mcuW, mcuH] at addresses
  omega

theorem Valid.w_lt (valid : src.Valid) : src.w + 32 ≤ 2 ^ 31 := by
  have more := Nat.le_mul_of_pos_right src.w valid.tall
  have area := valid.area_lt
  omega

theorem Valid.h_lt (valid : src.Valid) : src.h + 32 ≤ 2 ^ 31 := by
  have more := Nat.le_mul_of_pos_left src.h valid.wide
  have area := valid.area_lt
  omega

theorem pixel_lt {x y : Nat} (column : x < src.w) (row : y < src.h) : src.w * y + x < src.w * src.h := by
  have below : src.w * y + src.w ≤ src.w * src.h := by
    rw [← Nat.mul_succ]
    exact Nat.mul_le_mul_left src.w row
  omega

private theorem pixel_injective {x y x' y' : Nat} (column : x < src.w) (column' : x' < src.w)
    (same : src.w * y + x = src.w * y' + x') : x = x' ∧ y = y' := by
  have positive : 0 < src.w := by omega
  have xs := congrArg (· % src.w) same
  have ys := congrArg (· / src.w) same
  simp only [Nat.mul_add_mod, Nat.mod_eq_of_lt column, Nat.mod_eq_of_lt column'] at xs
  simp only [Nat.mul_add_div positive, Nat.div_eq_of_lt column, Nat.div_eq_of_lt column', Nat.add_zero] at ys
  exact ⟨xs, ys⟩

theorem pixelBytes_lt {x y a : Nat} (column : x < src.w) (row : y < src.h) (byte : a ∈ src.pixelBytes x y) :
    a < src.w * src.h * src.pixfmt.bpp := by
  obtain ⟨k, within, rfl⟩ := List.mem_map.mp byte
  exact src.pixfmt.layout.address_lt (pixel_lt column row) (List.mem_range.mp within)

/-- No two pixels share their bytes. -/
theorem Valid.pixelBytes_inj (valid : src.Valid) {x y x' y' : Nat} (column : x < src.w) (column' : x' < src.w) :
    src.pixelBytes x y = src.pixelBytes x' y' ↔ x = x' ∧ y = y' := by
  constructor
  · intro same
    apply pixel_injective column column'
    have first := congrArg (·[0]?) same
    simp only [pixelBytes, List.getElem?_map, List.getElem?_range valid.bpp_pos, Option.map_some, Option.some.injEq] at first
    revert first
    cases src.pixfmt.layout with
    | packed =>
      intro first
      simp only [Raster.Layout.address, Nat.add_zero] at first
      exact Nat.eq_of_mul_eq_mul_right valid.bpp_pos first
    | planar =>
      intro first
      simpa only [Raster.Layout.address, Nat.zero_mul, Nat.zero_add] using first
  · rintro ⟨rfl, rfl⟩
    rfl

end ImageInfo

def Sample.key (sample : Sample) : Nat × List Nat := (sample.index, sample.bytes)

theorem byTwos_map {γ : Type} (view : Sample → γ) {two one : Nat → List Sample} (cell : Nat → γ)
    (twice : ∀ x, (two x).map view = [cell x, cell (x + 1)]) (once : ∀ x, (one x).map view = [cell x]) (count : Nat) :
    ∀ x, (byTwos two one x count).map view = (List.range count).map fun k => cell (x + k) := by
  induction count using Nat.twoStepInduction with
  | zero => exact fun x => rfl
  | one => exact fun x => by simpa [byTwos] using once x
  | more count ih _ =>
    intro x
    rw [byTwos, List.map_append, twice, ih, List.range_succ_eq_map, List.range_succ_eq_map]
    simp only [List.map_cons, List.map_map, List.cons_append, List.nil_append, Nat.add_zero, Nat.succ_eq_add_one, Nat.zero_add]
    congr 2
    apply List.map_congr_left
    intro k _
    simp only [Function.comp_apply]
    congr 1
    omega

theorem mcuRows_map {γ : Type} (view : Sample → γ) (cell : Nat → Nat → Nat → γ) {row : Nat → Nat → List Sample} {dx height : Nat}
    (rows : ∀ y index, y < height → (row y index).map view = (List.range dx).map fun k => cell (index + k) k y) (dy : Nat) :
    ∀ y index, y + dy ≤ height → (mcuRows row y index dy).map view =
      (List.range dy).flatMap fun j => (List.range dx).map fun k => cell (index + j * mcuW + k) k (y + j) := by
  induction dy with
  | zero => exact fun y index _ => rfl
  | succ dy ih =>
    intro y index inside
    rw [mcuRows, List.map_append, rows y index (by omega), ih (y + 1) (index + mcuW) (by omega), List.range_succ_eq_map,
      List.flatMap_cons, List.flatMap_map]
    simp only [Nat.zero_mul, Nat.add_zero, Nat.succ_mul, Nat.succ_eq_add_one, Nat.add_assoc, Nat.add_comm 1, Nat.add_comm mcuW]

section Rows

variable {src : ImageInfo} {xOffset : Nat}

theorem componentRow_key (place : Nat → Nat × Nat × Nat) (dx index : Nat) :
    (componentRow src place dx index).map Sample.key =
      (List.range dx).map fun k => (index + k, [(place k).1, (place k).2.1, (place k).2.2]) := by
  refine (byTwos_map Sample.key (fun x => (index + x, [(place x).1, (place x).2.1, (place x).2.2])) (fun x => rfl) (fun x => rfl) dx
    0).trans ?_
  simp only [Nat.zero_add]

theorem rgb565Row_key (dx y index : Nat) :
    (rgb565Row src xOffset dx y index).map Sample.key =
      (List.range dx).map fun k =>
        (index + k, [(u32 (src.w * y) + xOffset + k) * 2, (u32 (src.w * y) + xOffset + k) * 2 + 1]) := by
  refine (byTwos_map Sample.key (fun x =>
    (index + x, [(u32 (src.w * y) + xOffset + x) * 2, (u32 (src.w * y) + xOffset + x) * 2 + 1])) (fun x => rfl)
    (fun x => rfl) dx 0).trans ?_
  simp only [Nat.zero_add]

theorem grayscaleRow_key {dx : Nat} (some : 1 ≤ dx) (most : dx ≤ mcuW) (y index : Nat) :
    (grayscaleRow src xOffset dx y index).map Sample.key =
      (List.range dx).map fun k => (index + k, [u32 (src.w * y) + xOffset + k]) := by
  simp only [mcuW] at most
  interval_cases dx <;> rfl

variable {dx : Nat}

/-- A row of the picture is read as a row of the block. -/
def Reads (src : ImageInfo) (xOffset dx : Nat) (row : Nat → Nat → List Sample) : Prop :=
  ∀ y index, y < src.h →
    (row y index).map Sample.key = (List.range dx).map fun k => (index + k, src.pixelBytes (xOffset + k) y)

private theorem ImageInfo.Valid.row_lt (valid : src.Valid) {y : Nat} (inside : y < src.h) :
    src.w * y * src.pixfmt.bpp < u32Range := by
  have below : src.w * y ≤ src.w * src.h := Nat.mul_le_mul_left src.w (Nat.le_of_lt inside)
  have scaled := Nat.mul_le_mul_right src.pixfmt.bpp below
  have addresses := valid.addresses
  simp only [u32Range]
  omega

private theorem grayscale_reads (valid : src.Valid) (format : src.pixfmt = .grayscale) (some : 1 ≤ dx) (most : dx ≤ mcuW) :
    Reads src xOffset dx (grayscaleRow src xOffset dx) := by
  intro y index inside
  have row := valid.row_lt inside
  rw [format, Format.bpp, Nat.mul_one] at row
  rw [grayscaleRow_key some most, u32, Nat.mod_eq_of_lt row]
  apply List.map_congr_left
  intro k _
  simp only [ImageInfo.pixelBytes, format, Format.bpp, Format.layout, Raster.Layout.address, List.range_one, List.map_cons,
    List.map_nil, Nat.mul_one, Nat.add_zero, Nat.add_assoc]

private theorem rgb565_reads (valid : src.Valid) (format : src.pixfmt = .rgb565) :
    Reads src xOffset dx (rgb565Row src xOffset dx) := by
  intro y index inside
  have row := valid.row_lt inside
  rw [format, Format.bpp] at row
  rw [rgb565Row_key, u32, Nat.mod_eq_of_lt (by omega)]
  apply List.map_congr_left
  intro k _
  simp only [ImageInfo.pixelBytes, format, Format.bpp, Format.layout, Raster.Layout.address, List.range_succ, List.range_zero,
    List.nil_append, List.map_cons, List.map_nil, List.cons_append, Nat.add_zero, Nat.add_assoc]

private theorem rgb888_reads (valid : src.Valid) (format : src.pixfmt = .rgb888) :
    Reads src xOffset dx (rgb888Row src xOffset dx) := by
  intro y index inside
  have row := valid.row_lt inside
  rw [format, Format.bpp] at row
  rw [rgb888Row, componentRow_key, u32, Nat.mod_eq_of_lt row]
  apply List.map_congr_left
  intro k _
  have place : src.w * y * 3 + xOffset * 3 + k * 3 = (src.w * y + (xOffset + k)) * 3 := by
    rw [Nat.add_mul, Nat.add_mul, Nat.add_assoc]
  simp only [ImageInfo.pixelBytes, format, Format.bpp, Format.layout, Raster.Layout.address, List.range_succ, List.range_zero,
    List.nil_append, List.map_cons, List.map_nil, List.cons_append, Nat.add_zero, place]

private theorem rgbp888_reads (valid : src.Valid) (format : src.pixfmt = .rgbp888) :
    Reads src xOffset dx (rgbp888Row src xOffset dx) := by
  intro y index inside
  have area : src.w * src.h < u32Range := by
    have := valid.area_lt
    simp only [u32Range]
    omega
  rw [rgbp888Row, componentRow_key, u32, Nat.mod_eq_of_lt area]
  apply List.map_congr_left
  intro k _
  simp only [ImageInfo.pixelBytes, format, Format.bpp, Format.layout, Raster.Layout.address, List.range_succ, List.range_zero,
    List.nil_append, List.map_cons, List.map_nil, List.cons_append, Nat.zero_mul, Nat.zero_add, Nat.one_mul,
    Nat.two_mul, Nat.add_assoc]

end Rows

theorem mcuSamples_key {src : ImageInfo} (valid : src.Valid) {xOffset yOffset dx dy : Nat} (some : 1 ≤ dx) (most : dx ≤ mcuW)
    (rows : yOffset + dy ≤ src.h) :
    (mcuSamples src xOffset yOffset dx dy).map Sample.key =
      (List.range dy).flatMap fun j =>
        (List.range dx).map fun k => (j * mcuW + k, src.pixelBytes (xOffset + k) (yOffset + j)) := by
  have walk {row : Nat → Nat → List Sample} (reads : Reads src xOffset dx row) :
      (mcuRows row yOffset 0 dy).map Sample.key =
        (List.range dy).flatMap fun j =>
          (List.range dx).map fun k => (j * mcuW + k, src.pixelBytes (xOffset + k) (yOffset + j)) := by
    have mapped := mcuRows_map Sample.key (fun index k y => (index, src.pixelBytes (xOffset + k) y)) reads dy yOffset 0 rows
    simpa only [Nat.zero_add] using mapped
  cases format : src.pixfmt with
  | grayscale =>
    simp only [mcuSamples, format]
    exact walk (grayscale_reads valid format some most)
  | rgb565 =>
    simp only [mcuSamples, format]
    exact walk (rgb565_reads valid format)
  | rgb888 =>
    simp only [mcuSamples, format]
    exact walk (rgb888_reads valid format)
  | rgbp888 =>
    simp only [mcuSamples, format]
    exact walk (rgbp888_reads valid format)
  | invalid => exact absurd format valid.format

private theorem mcuRows_some {row : Nat → Nat → List Sample} {y dx dy : Nat} {key : Nat → Nat × List Nat} (wide : 1 ≤ dx)
    (tall : 1 ≤ dy) (reads : (row y 0).map Sample.key = (List.range dx).map key) (byte : (key 0).2 ≠ []) :
    ∃ sample ∈ mcuRows row y 0 dy, sample.bytes ≠ [] := by
  have first : key 0 ∈ (row y 0).map Sample.key := by
    rw [reads]
    exact List.mem_map_of_mem (List.mem_range.mpr wide)
  obtain ⟨sample, member, same⟩ := List.mem_map.mp first
  obtain ⟨left, rfl⟩ : ∃ left, dy = left + 1 := ⟨dy - 1, by omega⟩
  refine ⟨sample, List.mem_append_left _ member, fun none => byte ?_⟩
  rw [← same]
  exact none

/-- A block is read wherever it lies, also outside the image. -/
theorem mcuSamples_some {src : ImageInfo} (format : src.pixfmt ≠ .invalid) (xOffset yOffset : Nat) {dx dy : Nat}
    (wide : 1 ≤ dx) (most : dx ≤ mcuW) (tall : 1 ≤ dy) :
    ∃ sample ∈ mcuSamples src xOffset yOffset dx dy, sample.bytes ≠ [] := by
  cases same : src.pixfmt with
  | grayscale =>
    simp only [mcuSamples, same]
    exact mcuRows_some wide tall (grayscaleRow_key wide most yOffset 0) (by simp)
  | rgb565 =>
    simp only [mcuSamples, same]
    exact mcuRows_some wide tall (rgb565Row_key dx yOffset 0) (by simp)
  | rgb888 =>
    simp only [mcuSamples, same]
    apply mcuRows_some wide tall
    · rw [rgb888Row, componentRow_key]
    · simp
  | rgbp888 =>
    simp only [mcuSamples, same]
    apply mcuRows_some wide tall
    · rw [rgbp888Row, componentRow_key]
    · simp
  | invalid => exact absurd same format

end ArduinoK210.Jpeg
